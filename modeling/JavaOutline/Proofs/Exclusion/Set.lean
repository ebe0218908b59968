import JavaOutline.Exclusion.Set
import Mathlib.Data.List.Basic

/-! What a set of patterns excludes: the paths that one of the patterns of one of its entries stands
for. The set exists as soon as all patterns can be read. -/
namespace JavaOutline.ExclusionSet

def Readable (raw : String) : Prop := ∀ pattern ∈ expand raw, (Glob.parse pattern).isOk = true

instance (raw : String) : Decidable (Readable raw) :=
  inferInstanceAs (Decidable (∀ pattern ∈ expand raw, (Glob.parse pattern).isOk = true))

/-- One of the patterns that an entry stands for stands for a path. -/
def Matches (raw path : String) : Prop :=
  ∃ pattern ∈ expand raw, ∃ tokens, Glob.parse pattern = .ok tokens ∧
    Glob.isMatch tokens path = true

instance (raw path : String) : Decidable (Matches raw path) :=
  decidable_of_iff (∃ pattern ∈ expand raw, ∃ tokens ∈ (Glob.parse pattern).toOption,
      Glob.isMatch tokens path = true) (by
    refine exists_congr fun pattern => and_congr_right fun _ => exists_congr fun tokens => ?_
    cases Glob.parse pattern <;> simp [Except.toOption])

/-- Patterns that can be read by themselves are read together, each as it is. -/
theorem exists_readAll (raw : String) {patterns : List String}
    (h : ∀ pattern ∈ patterns, (Glob.parse pattern).isOk = true) :
    ∃ read, readAll raw patterns = .ok read ∧
      ∀ tokens, tokens ∈ read ↔ ∃ pattern ∈ patterns, Glob.parse pattern = .ok tokens := by
  induction patterns with
  | nil => exact ⟨[], rfl, by simp⟩
  | cons pattern rest ih =>
      obtain ⟨others, hOthers, hMem⟩ := ih fun p hp => h p (List.mem_cons_of_mem _ hp)
      cases hParse : Glob.parse pattern with
      | error fault => simpa [hParse, Except.isOk, Except.toBool] using h pattern List.mem_cons_self
      | ok first =>
          refine ⟨first :: others, by simp [readAll, hParse, hOthers], fun tokens => ?_⟩
          simp [hMem, hParse, eq_comm]

/-- Entries that can be read describe the set of the paths that one of them matches. -/
theorem exists_ofEntries {entries : List String} (h : ∀ raw ∈ entries, Readable raw) :
    ∃ set, ofEntries entries = .ok set ∧
      ∀ path, set.excludes path = true ↔ ∃ raw ∈ entries, Matches raw path := by
  induction entries with
  | nil => exact ⟨⟨[]⟩, rfl, by simp [excludes]⟩
  | cons raw rest ih =>
      obtain ⟨others, hOthers, hExcludes⟩ := ih fun r hr => h r (List.mem_cons_of_mem _ hr)
      obtain ⟨read, hRead, hMem⟩ := exists_readAll raw (h raw List.mem_cons_self)
      refine ⟨⟨read ++ others.patterns⟩, by simp [ofEntries, hRead, hOthers], fun path => ?_⟩
      have hFirst : (∃ tokens ∈ read, Glob.isMatch tokens path = true) ↔ Matches raw path := by
        simp only [hMem, Matches]
        constructor
        · rintro ⟨tokens, ⟨pattern, hPattern, hParse⟩, hMatch⟩
          exact ⟨pattern, hPattern, tokens, hParse, hMatch⟩
        · rintro ⟨pattern, hPattern, tokens, hParse, hMatch⟩
          exact ⟨tokens, ⟨pattern, hPattern, hParse⟩, hMatch⟩
      have hRest : others.patterns.any (fun p => Glob.isMatch p path) = others.excludes path := rfl
      rw [excludes, List.any_append, Bool.or_eq_true, hRest, hExcludes, List.any_eq_true, hFirst]
      simp

/-- If patterns are read together, each can be read by itself. -/
theorem isOk_of_readAll {raw : String} {patterns : List String} {read : List (List Glob.Token)}
    (h : readAll raw patterns = .ok read) :
    ∀ pattern ∈ patterns, (Glob.parse pattern).isOk = true := by
  induction patterns generalizing read with
  | nil => simp
  | cons pattern rest ih =>
      rw [readAll] at h
      cases hParse : Glob.parse pattern with
      | error fault => simp [hParse] at h
      | ok tokens =>
          cases hRest : readAll raw rest with
          | error e => simp [hParse, hRest] at h
          | ok others => exact List.forall_mem_cons.mpr ⟨by rw [hParse]; rfl, ih hRest⟩

/-- Only entries that can be read describe a set. -/
theorem readable_of_ofEntries {entries : List String} {set : ExclusionSet}
    (h : ofEntries entries = .ok set) : ∀ raw ∈ entries, Readable raw := by
  induction entries generalizing set with
  | nil => simp
  | cons raw rest ih =>
      rw [ofEntries] at h
      cases hRead : readAll raw (expand raw) with
      | error e => simp [hRead] at h
      | ok read =>
          cases hRest : ofEntries rest with
          | error e => simp [hRead, hRest] at h
          | ok others => exact List.forall_mem_cons.mpr ⟨isOk_of_readAll hRead, ih hRest⟩

end JavaOutline.ExclusionSet
