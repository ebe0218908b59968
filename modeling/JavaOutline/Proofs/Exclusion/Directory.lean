import JavaOutline.Proofs.Exclusion.Glob
import JavaOutline.Proofs.Exclusion.Set

/-! Entries for directories. Such an entry stands for two patterns, one for the directory at the
root and one for it below another. Put a slash in front of the path, and both say the same: that the
entry occurs in it between slashes. Slashes divide components, so what occurs between slashes is a
run of whole components, with at least one more after it. -/
namespace JavaOutline.ExclusionSet

/-- A directory at the root and one at any depth have a pattern each. -/
theorem expand_directory (directory : String) :
    expand (directory ++ "/") = [directory ++ "/*", "*/" ++ directory ++ "/*"] := by
  have hChars : (directory ++ "/").toList = directory.toList ++ ['/'] := by simp
  rw [expand, hChars, List.getLast?_concat, if_pos rfl, List.dropLast_concat, String.ofList_toList]

section Patterns

variable {directory : String} (h : ∀ c ∈ directory.toList, Glob.IsLiteral c)

include h

theorem isLiteral_of_mem_closed {c : Char} (hc : c ∈ directory.toList ++ ['/']) :
    Glob.IsLiteral c := by
  rcases List.mem_append.mp hc with hc | hc
  · exact h c hc
  · rw [List.mem_singleton.mp hc]
    decide

/-- The pattern for a directory at the root asks for its name, a slash and anything. -/
theorem parse_directory :
    Glob.parse (directory ++ "/*") =
      .ok ((directory.toList ++ ['/']).map .literal ++ [.anySequence]) := by
  have hChars : (directory ++ "/*").toList = directory.toList ++ ['/'] ++ ['*'] := by simp
  rw [Glob.parse, hChars]
  apply Glob.parseFrom_literals_star
  intro c hc
  exact isLiteral_of_mem_closed h hc

/-- The pattern for a directory further down asks for anything before a slash and the name as
well. -/
theorem parse_directory_below :
    Glob.parse ("*/" ++ directory ++ "/*") =
      .ok (.anySequence ::
        (('/' :: (directory.toList ++ ['/'])).map .literal ++ [.anySequence])) := by
  have hChars : ("*/" ++ directory ++ "/*").toList =
      '*' :: ('/' :: (directory.toList ++ ['/']) ++ ['*']) := by simp
  rw [Glob.parse, hChars]
  apply Glob.parseFrom_star_literals_star
  rw [List.forall_mem_cons]
  exact ⟨by decide, fun c hc => isLiteral_of_mem_closed h hc⟩

theorem readable_directory : Readable (directory ++ "/") := by
  intro pattern hPattern
  rw [expand_directory, List.mem_pair] at hPattern
  rcases hPattern with rfl | rfl
  · rw [parse_directory h]
    rfl
  · rw [parse_directory_below h]
    rfl

/-- An entry for a directory matches a path if it occurs between slashes in the path with a slash in
front. -/
theorem matches_directory_iff {path : String} :
    Matches (directory ++ "/") path ↔
      '/' :: (directory.toList ++ ['/']) <:+: '/' :: path.toList := by
  rw [List.infix_cons_iff, List.cons_prefix_cons, and_iff_right rfl,
    ← Glob.isMatch_literals_anySequence, ← Glob.isMatch_anySequence_literals_anySequence, Matches,
    expand_directory]
  simp [parse_directory h, parse_directory_below h]

end Patterns

def slashed (components : List String) : List Char :=
  components.flatMap fun c => '/' :: c.toList

theorem slashed_cons (first : String) (components : List String) :
    slashed (first :: components) = '/' :: (first.toList ++ slashed components) := rfl

/-- Components with a slash before each are a slash and the components with slashes in between. -/
theorem slash_cons_intercalate {components : List String} (h : components ≠ []) :
    '/' :: ("/".intercalate components).toList = slashed components := by
  rw [String.toList_intercalate]
  induction components with
  | nil => exact (h rfl).elim
  | cons first components ih =>
      cases components with
      | nil => simp [slashed]
      | cons second components =>
          rw [slashed_cons, ← ih (List.cons_ne_nil second components)]
          simp [List.intercalate_cons_cons]

/-- A first component is told by what stands before the next slash. -/
theorem append_slash_prefix_iff {a b rest : List Char} (ha : '/' ∉ a) (hb : '/' ∉ b)
    (components : List String) :
    a ++ '/' :: rest <+: b ++ slashed components ↔
      a = b ∧ '/' :: rest <+: slashed components := by
  induction a generalizing b with
  | nil =>
      cases b with
      | nil => simp
      | cons d b =>
          have hd : '/' ≠ d := (List.ne_and_not_mem_of_not_mem_cons hb).1
          simp [List.cons_prefix_cons, hd]
  | cons c a ih =>
      obtain ⟨hc, ha⟩ := List.ne_and_not_mem_of_not_mem_cons ha
      cases b with
      | nil =>
          cases components with
          | nil => simp [slashed]
          | cons first components => simp [slashed_cons, List.cons_prefix_cons, hc.symm]
      | cons d b =>
          obtain ⟨-, hb⟩ := List.ne_and_not_mem_of_not_mem_cons hb
          rw [List.cons_append, List.cons_append, List.cons_prefix_cons, ih ha hb, List.cons.injEq,
            and_assoc]

/-- What begins with a slash does not begin inside a component. -/
theorem slash_infix_append_iff {b rest text : List Char} (hb : '/' ∉ b) :
    '/' :: rest <:+: b ++ text ↔ '/' :: rest <:+: text := by
  induction b with
  | nil => rfl
  | cons d b ih =>
      obtain ⟨hd, hb⟩ := List.ne_and_not_mem_of_not_mem_cons hb
      rw [List.cons_append, List.infix_cons_iff, ih hb, List.cons_prefix_cons]
      simp [hd]

/-- With a slash at the end there is one at the beginning, even if there are no components. -/
theorem exists_slashed_concat (components : List String) :
    ∃ rest, slashed components ++ ['/'] = '/' :: rest := by
  cases components with
  | nil => exact ⟨[], rfl⟩
  | cons first components => exact ⟨_, by rw [slashed_cons, List.cons_append]⟩

section Components

variable {directory path : List String} (hDirectory : ∀ d ∈ directory, '/' ∉ d.toList)
  (hPath : ∀ c ∈ path, '/' ∉ c.toList)

include hDirectory hPath

/-- Components between slashes are at the beginning of a path if they are its first components and
not all of them. -/
theorem slashed_prefix_iff :
    slashed directory ++ ['/'] <+: slashed path ↔
      ∃ after, after ≠ [] ∧ path = directory ++ after := by
  induction directory generalizing path with
  | nil =>
      cases path with
      | nil => simp [slashed]
      | cons c path => simp [slashed, List.cons_prefix_cons]
  | cons d directory ih =>
      cases path with
      | nil => simp [slashed]
      | cons c path =>
          obtain ⟨hd, hDirectory⟩ := List.forall_mem_cons.mp hDirectory
          obtain ⟨hc, hPath⟩ := List.forall_mem_cons.mp hPath
          obtain ⟨rest, hRest⟩ := exists_slashed_concat directory
          rw [slashed_cons, slashed_cons, List.cons_append, List.append_assoc, hRest,
            List.cons_prefix_cons, and_iff_right rfl, append_slash_prefix_iff hd hc, ← hRest,
            ih hDirectory hPath, String.toList_inj, ← exists_and_left]
          simp only [List.cons_append, List.cons.injEq, and_left_comm, eq_comm]

/-- Components between slashes occur in a path if they are consecutive components of it and not the
last ones. -/
theorem slashed_infix_iff :
    slashed directory ++ ['/'] <:+: slashed path ↔
      ∃ before after, after ≠ [] ∧ path = before ++ directory ++ after := by
  induction path with
  | nil => simp [slashed]
  | cons c path ih =>
      obtain ⟨hc, hRest⟩ := List.forall_mem_cons.mp hPath
      obtain ⟨rest, hSlashed⟩ := exists_slashed_concat directory
      have hBelow : slashed directory ++ ['/'] <:+: c.toList ++ slashed path ↔
          ∃ before after, after ≠ [] ∧ path = before ++ directory ++ after := by
        rw [hSlashed, slash_infix_append_iff hc, ← hSlashed, ih hRest]
      rw [slashed_cons, List.infix_cons_iff, ← slashed_cons,
        slashed_prefix_iff hDirectory hPath, hBelow]
      constructor
      · intro hOccurs
        rcases hOccurs with ⟨after, hAfter, hHere⟩ | ⟨before, after, hAfter, rfl⟩
        · exact ⟨[], after, hAfter, hHere⟩
        · exact ⟨c :: before, after, hAfter, rfl⟩
      · intro hOccurs
        obtain ⟨before, after, hAfter, hEq⟩ := hOccurs
        cases before with
        | nil => exact .inl ⟨after, hAfter, hEq⟩
        | cons first before =>
            obtain ⟨-, rfl⟩ := List.cons.inj hEq
            exact .inr ⟨before, after, hAfter, rfl⟩

end Components

/-- What holds of a slash and of the characters of all components holds of the path. -/
theorem forall_mem_intercalate {components : List String} (hNonempty : components ≠ [])
    {P : Char → Prop} (hSlash : P '/') (h : ∀ d ∈ components, ∀ c ∈ d.toList, P c) :
    ∀ c ∈ ("/".intercalate components).toList, P c := by
  intro c hc
  have hMem : c ∈ slashed components := by
    rw [← slash_cons_intercalate hNonempty]
    exact List.mem_cons_of_mem _ hc
  obtain ⟨d, hd, hc⟩ := List.mem_flatMap.mp hMem
  rcases List.mem_cons.mp hc with rfl | hc
  · exact hSlash
  · exact h d hd c hc

/-- An entry for a directory matches a path if its components occur in it between slashes. -/
theorem matches_intercalate_iff {directory : List String} (hNonempty : directory ≠ [])
    (hLiteral : ∀ c ∈ ("/".intercalate directory).toList, Glob.IsLiteral c) (path : List String) :
    Matches ("/".intercalate directory ++ "/") ("/".intercalate path) ↔
      slashed directory ++ ['/'] <:+: slashed path := by
  rw [matches_directory_iff hLiteral, ← List.cons_append, slash_cons_intercalate hNonempty]
  cases path with
  | nil =>
      -- There is no room for two slashes.
      obtain ⟨first, rest, rfl⟩ := List.exists_cons_of_ne_nil hNonempty
      have hOne : ¬ slashed (first :: rest) ++ ['/'] <:+: '/' :: ("/".intercalate []).toList := by
        intro hInfix
        have hLength := hInfix.length_le
        simp [slashed_cons] at hLength
      have hNone : ¬ slashed (first :: rest) ++ ['/'] <:+: slashed [] := by simp [slashed]
      exact iff_of_false hOne hNone
  | cons c path => rw [slash_cons_intercalate (List.cons_ne_nil c path)]

/-- An entry for a directory, given by its components, leaves out exactly the paths in which these
components follow one another, at the root or at any depth, with at least one component after
them. -/
theorem excludes_directory_iff {directory : List String} (hNonempty : directory ≠ [])
    (hDirectory : ∀ d ∈ directory, '/' ∉ d.toList ∧ ∀ c ∈ d.toList, Glob.IsLiteral c) :
    ∃ set, ofEntries ["/".intercalate directory ++ "/"] = .ok set ∧
      ∀ path : List String, (∀ c ∈ path, '/' ∉ c.toList) →
        (set.excludes ("/".intercalate path) = true ↔
          ∃ before after, after ≠ [] ∧ path = before ++ directory ++ after) := by
  have hLiteral : ∀ c ∈ ("/".intercalate directory).toList, Glob.IsLiteral c :=
    forall_mem_intercalate hNonempty (by decide) fun d hd => (hDirectory d hd).2
  obtain ⟨set, hSet, hExcludes⟩ :=
    exists_ofEntries (List.forall_mem_singleton.mpr (readable_directory hLiteral))
  refine ⟨set, hSet, ?_⟩
  intro path hPath
  have hMatches : set.excludes ("/".intercalate path) = true ↔
      Matches ("/".intercalate directory ++ "/") ("/".intercalate path) := by
    simp [hExcludes]
  rw [hMatches, matches_intercalate_iff hNonempty hLiteral]
  exact slashed_infix_iff (fun d hd => (hDirectory d hd).1) hPath

/-- Components are left out below another directory, but not where a name only ends like the first
of them, and not at the end of a path. -/
theorem excludes_directory_iff_srcBuild :
    ∃ set, ofEntries ["src/build/"] = .ok set ∧
      set.excludes "lib/src/build/gen/A.java" = true ∧
      set.excludes "my-src/build/A.java" = false ∧ set.excludes "lib/src/build" = false := by
  obtain ⟨set, hSet, hExcludes⟩ :=
    excludes_directory_iff (show ["src", "build"] ≠ [] by decide) (by simp [Glob.IsLiteral])
  refine ⟨set, hSet, ?_, ?_, ?_⟩
  · apply (hExcludes ["lib", "src", "build", "gen", "A.java"] (by decide)).mpr
    exact ⟨["lib"], ["gen", "A.java"], by decide, rfl⟩
  · apply Bool.eq_false_iff.mpr
    intro hExcluded
    have hOccurs := (hExcludes ["my-src", "build", "A.java"] (by decide)).mp hExcluded
    simp [List.cons_eq_append_iff] at hOccurs
  · apply Bool.eq_false_iff.mpr
    intro hExcluded
    have hOccurs := (hExcludes ["lib", "src", "build"] (by decide)).mp hExcluded
    simp [List.cons_eq_append_iff] at hOccurs

end JavaOutline.ExclusionSet
