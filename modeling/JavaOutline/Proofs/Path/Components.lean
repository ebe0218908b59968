import JavaOutline.Proofs.FileSystem.Trail

/-! Components of a path below another. What is joined to a path comes as one more component after
those of the path, however these are spelled, so the names of a trail are the last components of the
path that the trail leads to, and the rest of that path is the trail with slashes in between. -/
namespace JavaOutline.Path

theorem segments_ne_nil (offset : Nat) (bytes : List UInt8) : segments offset bytes ≠ [] := by
  cases bytes with
  | nil => simp [segments]
  | cons b rest =>
      rw [segments]
      split_ifs
      · simp
      · split <;> simp

theorem segments_of_notMem {offset : Nat} {bytes : List UInt8} (h : slash ∉ bytes) :
    segments offset bytes = [(offset, bytes)] := by
  induction bytes generalizing offset with
  | nil => rfl
  | cons b rest ih =>
      obtain ⟨hb, hRest⟩ := List.ne_and_not_mem_of_not_mem_cons h
      rw [segments, if_neg hb.symm, ih hRest]

/-- A slash divides the segments of a path. -/
theorem segments_append (offset : Nat) (before after : List UInt8) :
    segments offset (before ++ slash :: after) =
      segments offset before ++ segments (offset + before.length + 1) after := by
  induction before generalizing offset with
  | nil => simp [segments]
  | cons b rest ih =>
      have hOffset : offset + 1 + rest.length + 1 = offset + (b :: rest).length + 1 := by
        rw [List.length_cons]
        omega
      rw [List.cons_append, segments, segments, ih, hOffset]
      split_ifs with hb
      · rfl
      · obtain ⟨first, others, hSegments⟩ :=
          List.exists_cons_of_ne_nil (segments_ne_nil (offset + 1) rest)
        rw [hSegments]
        rfl

/-- Only the empty path is one empty segment. -/
theorem eq_nil_of_segments {offset : Nat} {bytes : List UInt8} {segment : Nat × List UInt8}
    (h : segments offset bytes = [segment]) (hEmpty : segment.2 = []) : bytes = [] := by
  cases bytes with
  | nil => rfl
  | cons b rest =>
      rw [segments] at h
      split_ifs at h
      · simp [segments_ne_nil] at h
      · split at h
        · simp_all [segments_ne_nil]
        · simp only [List.cons.injEq] at h
          simp [← h.1] at hEmpty

/-- A path with a slash in it has a last segment. -/
theorem exists_last_segment {bytes : List UInt8} (h : slash ∈ bytes) :
    ∃ before last, bytes = before ++ slash :: last ∧ slash ∉ last := by
  obtain ⟨last, before, hBytes, hLast⟩ := List.eq_append_cons_of_mem (List.mem_reverse.mpr h)
  refine ⟨before.reverse, last.reverse, ?_, by simpa using hLast⟩
  rw [← List.reverse_reverse bytes, hBytes]
  simp

/-- A file name is a component by itself. -/
theorem inner?_of_isFileName (offset : Nat) {name : Name} (h : IsFileName name) :
    inner? (offset, name) = some ⟨.name name, offset, offset + name.length⟩ := by
  obtain ⟨hNonempty, -, hDot, hDots⟩ := h
  simp [inner?, hNonempty, hDot, hDots]

/-- What follows the last slash of a path is at most one component, after those before it. -/
theorem located_append (before : List UInt8) {last : List UInt8} (h : slash ∉ last) :
    (⟨before ++ slash :: last⟩ : Path).located =
      (if before = [] then [⟨.root, 0, 1⟩] else (⟨before⟩ : Path).located) ++
        (inner? (before.length + 1, last)).toList := by
  have hLast : [(before.length + 1, last)].filterMap inner? =
      (inner? (before.length + 1, last)).toList := by
    cases hInner : inner? (before.length + 1, last) <;> simp [hInner]
  rw [located, segments_append, segments_of_notMem h, Nat.zero_add]
  split_ifs with hBefore
  · subst hBefore
    simpa [segments] using hLast
  · obtain ⟨first, rest, hSegments⟩ := List.exists_cons_of_ne_nil (segments_ne_nil 0 before)
    rw [located, hSegments]
    simp only [List.cons_append, List.filterMap_append, hLast]
    by_cases hEmpty : first.2 = []
    · have hRest : rest ≠ [] := by
        rintro rfl
        exact hBefore (eq_nil_of_segments hSegments hEmpty)
      simp [hEmpty, hRest]
    · by_cases hDot : first.2 = [dot]
      · simp [hDot]
      · simp [hEmpty, hDot]

/-- The slash before a name that is joined to a path is either the last byte of the path or added to
it. -/
theorem exists_opened {p : Path} (hp : p.bytes ≠ []) :
    ∃ before, p.opened = before ++ [slash] ∧ (p.bytes = before ++ [slash] ∨ p.bytes = before) := by
  have hLast := List.getLast?_eq_some_getLast hp
  have hBytes := List.dropLast_append_getLast hp
  generalize p.bytes.getLast hp = last at hLast hBytes
  by_cases hSlash : last = slash
  · subst hSlash
    exact ⟨p.bytes.dropLast, by simp [opened, hLast, hBytes], .inl hBytes.symm⟩
  · exact ⟨p.bytes, by simp [opened, hLast, hSlash], .inr rfl⟩

/-- A name joined to a path is one more component. -/
theorem located_join {p : Path} (hp : p.bytes ≠ []) {name : Name} (h : IsFileName name) :
    (p.join name).located =
      p.located ++ [⟨.name name, p.opened.length, p.opened.length + name.length⟩] := by
  have hSlash := h.2.1
  obtain ⟨before, hOpened, hBytes⟩ := exists_opened hp
  have hJoin : p.join name = ⟨before ++ slash :: name⟩ := by
    rw [Path.mk.injEq, bytes_join, hOpened]
    simp
  obtain ⟨bytes⟩ := p
  rw [hJoin, located_append before hSlash, inner?_of_isFileName _ h, hOpened]
  rcases hBytes with rfl | rfl
  · have hPath : (⟨before ++ [slash]⟩ : Path).located = _ := located_append before (by simp)
    rw [hPath]
    simp [inner?]
  · rw [if_neg hp]
    simp

/-- A name joined to the empty path is the whole path. -/
theorem located_empty_join {name : Name} (h : IsFileName name) :
    ((⟨[]⟩ : Path).join name).located = [⟨.name name, 0, name.length⟩] := by
  have hJoin : (⟨[]⟩ : Path).join name = ⟨name⟩ := rfl
  obtain ⟨hNonempty, hSlash, hDot, -⟩ := id h
  rw [hJoin, located, segments_of_notMem hSlash]
  simp [hNonempty, hDot, inner?_of_isFileName 0 h]

theorem bytes_join_ne_nil_of_isFileName (p : Path) {name : Name} (h : IsFileName name) :
    (p.join name).bytes ≠ [] := by
  rw [bytes_join]
  simp [h.1]

theorem bytes_join_ne_nil (p : Path) {name : Name} (h : isEntryName name = true) :
    (p.join name).bytes ≠ [] :=
  bytes_join_ne_nil_of_isFileName p (isFileName_of_isEntryName h)

theorem descend_concat (p : Path) (trail : List Name) (name : Name) :
    p.descend (trail ++ [name]) = (p.descend trail).join name :=
  List.foldl_concat ..

theorem bytes_descend_ne_nil {p : Path} (hp : p.bytes ≠ []) {trail : List Name}
    (h : ∀ name ∈ trail, isEntryName name = true) : (p.descend trail).bytes ≠ [] := by
  cases trail using List.reverseRecOn with
  | nil => exact hp
  | append_singleton trail name _ =>
      rw [descend_concat]
      exact bytes_join_ne_nil _ (h name (by simp))

/-- The components that the names of a trail are in the path that it leads to. -/
def below : Path → List Name → List Located
  | _, [] => []
  | p, name :: trail =>
      ⟨.name name, p.opened.length, p.opened.length + name.length⟩ :: below (p.join name) trail

/-- A trail adds its names to the components, and changes no component before. -/
theorem located_descend {p : Path} (hp : p.bytes ≠ []) {trail : List Name}
    (h : ∀ name ∈ trail, IsFileName name) :
    (p.descend trail).located = p.located ++ p.below trail := by
  induction trail generalizing p with
  | nil => simp [below]
  | cons name trail ih =>
      have hName := h name List.mem_cons_self
      rw [descend_cons, ih (bytes_join_ne_nil_of_isFileName p hName)
        fun n hn => h n (List.mem_cons_of_mem _ hn), located_join hp hName, below,
        List.append_assoc, List.singleton_append]

/-- The names of a trail that starts at the empty path are all components of its path. -/
theorem located_empty_descend {trail : List Name} (h : ∀ name ∈ trail, IsFileName name) :
    ((⟨[]⟩ : Path).descend trail).located = (⟨[]⟩ : Path).below trail := by
  cases trail with
  | nil => rfl
  | cons name trail =>
      obtain ⟨hName, hRest⟩ := List.forall_mem_cons.mp h
      have hOpened : (⟨[]⟩ : Path).opened.length = 0 := rfl
      rw [descend_cons, located_descend (bytes_join_ne_nil_of_isFileName _ hName) hRest,
        located_empty_join hName, below, hOpened, Nat.zero_add, List.singleton_append]

/-- The components below a path are the names of the trail. -/
theorem map_component_below (p : Path) (trail : List Name) :
    (p.below trail).map Located.component = trail.map Component.name := by
  induction trail generalizing p with
  | nil => rfl
  | cons name trail ih => simp [below, ih]

/-- The components of a path that a trail leads to end with the names of the trail. -/
theorem components_descend {p : Path} (hp : p.bytes ≠ []) {trail : List Name}
    (h : ∀ name ∈ trail, isEntryName name = true) :
    (p.descend trail).components = p.components ++ trail.map .name := by
  rw [components, located_descend hp fun n hn => isFileName_of_isEntryName (h n hn),
    List.map_append, map_component_below]
  rfl

/-- The last component of a trail ends where its path does. -/
theorem getLast?_below (p : Path) (name : Name) {trail : List Name}
    (h : ∀ n ∈ name :: trail, IsFileName n) :
    ∃ last, (p.below (name :: trail)).getLast? = some last ∧
      last.stop = (p.descend (name :: trail)).bytes.length := by
  induction trail generalizing p name with
  | nil => simp [below, bytes_join]
  | cons next trail ih =>
      obtain ⟨last, hLast, hStop⟩ :=
        ih (p.join name) next fun n hn => h n (List.mem_cons_of_mem _ hn)
      refine ⟨last, ?_, hStop⟩
      rw [below, List.getLast?_cons, hLast, Option.getD_some]

theorem dropComponents?_append (ls ms : List Located) :
    dropComponents? (ls ++ ms) (ls.map Located.component) = some ms := by
  induction ls with
  | nil => simp [dropComponents?]
  | cons l ls ih => simpa [dropComponents?] using ih

theorem encode_slash : Text.encode "/" = [slash] := by decide

theorem intercalate_slash (name : Name) (trail : List Name) :
    [slash].intercalate (name :: trail) = name ++ spelled trail := by
  induction trail generalizing name with
  | nil => simp [spelled]
  | cons next trail ih =>
      rw [List.intercalate_cons_cons, ih]
      simp [spelled]

/-- Below a path, a path that a trail leads to is the trail with slashes between the names. -/
theorem stripPrefix?_descend (p : Path) {trail : List Name} (hTrail : trail ≠ [])
    (h : ∀ name ∈ trail, IsFileName name) :
    (p.descend trail).stripPrefix? p = some ⟨[slash].intercalate trail⟩ := by
  have hLocated : (p.descend trail).located = p.located ++ p.below trail := by
    by_cases hp : p.bytes = []
    · obtain ⟨bytes⟩ := p
      obtain rfl : bytes = [] := hp
      exact located_empty_descend h
    · exact located_descend hp h
  obtain ⟨name, rest, rfl⟩ := List.exists_cons_of_ne_nil hTrail
  obtain ⟨last, hLast, hStop⟩ := p.getLast?_below name h
  have hFirst : (p.below (name :: rest)).head? =
      some ⟨.name name, p.opened.length, p.opened.length + name.length⟩ := rfl
  rw [stripPrefix?, hLocated, components, dropComponents?_append, Option.map_some,
    covering, hFirst, hLast]
  simp only [hStop, List.take_length, bytes_descend p name rest h, List.drop_left,
    intercalate_slash]

/-- A path that a trail leads to has a text below the path where the trail starts if the trail has
one. -/
theorem relativeTo_descend (p : Path) {trail : List Name} (hTrail : trail ≠ [])
    (h : ∀ name ∈ trail, IsFileName name) :
    (p.descend trail).relativeTo p =
      match Text.decode? ([slash].intercalate trail) with
      | none => .error .notText
      | some s => .ok s := by
  rw [relativeTo, stripPrefix?_descend p hTrail h]
  rfl

/-- A name that is joined to a path is the file name of the result. -/
theorem fileName?_join {p : Path} (hp : p.bytes ≠ []) {name : Name}
    (h : isEntryName name = true) : (p.join name).fileName? = some name := by
  rw [fileName?, components, located_join hp (isFileName_of_isEntryName h)]
  simp

end JavaOutline.Path
