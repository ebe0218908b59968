import JavaOutline.FileSystem.Basic
import Mathlib.Data.List.Basic
import Mathlib.Data.List.Infix

/-! Trails: the names on the way from a directory down to an entry. In a file system as there are,
every directory has each name once, and no name can be mistaken for a path. Then a path tells the
trail that it was put together from. -/
namespace JavaOutline

open JavaOutline.Path

def isEntryName (name : Name) : Bool :=
  !name.isEmpty && !name.contains slash && !name.contains 0 && name != [dot] && name != [dot, dot]

namespace Entry

mutual

/-- Whether every directory in an entry has each name once, and only names that can be one. -/
def isProper : Entry → Bool
  | .directory cs => areProper cs
  | _ => true

def areProper : List (Name × Entry) → Bool
  | [] => true
  | (name, e) :: rest =>
      isEntryName name && rest.all (fun other => other.1 != name) && isProper e && areProper rest

end

/-- To prove something of every entry, prove it of a directory whose entries have it. -/
theorem induct {motive : Entry → Prop} (regular : ∀ content, motive (.regular content))
    (sealed : ∀ fault, motive (.sealed fault)) (link : ∀ target, motive (.link target))
    (directory : ∀ cs, (∀ name e, (name, e) ∈ cs → motive e) → motive (.directory cs)) :
    ∀ e, motive e
  | .regular content => regular content
  | .sealed fault => sealed fault
  | .link target => link target
  | .directory cs => directory cs fun _ e _hMem => induct regular sealed link directory e
termination_by e => sizeOf e
decreasing_by
  have hEntry := List.sizeOf_lt_of_mem _hMem
  simp only [Entry.directory.sizeOf_spec, Prod.mk.sizeOf_spec] at *
  omega

/-- A list of entries is proper if no name occurs twice and each name and each entry is. -/
theorem areProper_iff {cs : List (Name × Entry)} :
    areProper cs = true ↔ (cs.map Prod.fst).Nodup ∧
      ∀ name e, (name, e) ∈ cs → isEntryName name = true ∧ e.isProper = true := by
  induction cs with
  | nil => simp [areProper]
  | cons c cs ih =>
      obtain ⟨name, e⟩ := c
      simp only [areProper, Bool.and_eq_true, ih, List.all_eq_true, bne_iff_ne, List.map_cons,
        List.nodup_cons, List.mem_map, Prod.exists, exists_and_right, exists_eq_right,
        List.mem_cons, Prod.mk.injEq]
      constructor
      · rintro ⟨⟨⟨hName, hOther⟩, hEntry⟩, hNodup, hRest⟩
        refine ⟨⟨?_, hNodup⟩, ?_⟩
        · rintro ⟨d, hd⟩
          exact hOther _ hd rfl
        · rintro other d (⟨rfl, rfl⟩ | hd)
          · exact ⟨hName, hEntry⟩
          · exact hRest other d hd
      · rintro ⟨⟨hFresh, hNodup⟩, hAll⟩
        obtain ⟨hName, hEntry⟩ := hAll name e (.inl ⟨rfl, rfl⟩)
        refine ⟨⟨⟨hName, ?_⟩, hEntry⟩, hNodup, fun other d hd => hAll other d (.inr hd)⟩
        rintro ⟨other, d⟩ hd rfl
        exact hFresh ⟨d, hd⟩

theorem isProper_child? {e c : Entry} {name : Name} (h : e.isProper = true)
    (hChild : e.child? name = some c) : c.isProper = true := by
  cases e with
  | regular content => simp [child?, children] at hChild
  | sealed fault => simp [child?, children] at hChild
  | link target => simp [child?, children] at hChild
  | directory cs =>
      rw [isProper, areProper_iff] at h
      obtain ⟨before, after, rfl, -⟩ := List.lookup_eq_some_iff.mp hChild
      exact (h.2 name c (by simp)).2

/-- What lies in a proper entry is proper. -/
theorem isProper_at? {e c : Entry} {location : List Name} (h : e.isProper = true)
    (hAt : e.at? location = some c) : c.isProper = true := by
  induction location generalizing e with
  | nil =>
      obtain rfl : e = c := by simpa [at?] using hAt
      exact h
  | cons name rest ih =>
      rw [at?] at hAt
      obtain ⟨d, hChild, hRest⟩ := Option.bind_eq_some_iff.mp hAt
      exact ih (isProper_child? h hChild) hRest

end Entry

theorem isEntryName_iff {name : Name} :
    isEntryName name = true ↔
      name ≠ [] ∧ slash ∉ name ∧ 0 ∉ name ∧ name ≠ [dot] ∧ name ≠ [dot, dot] := by
  simp [isEntryName, and_assoc]

namespace Path

/-- Whether bytes are one component of every path that they are joined to. Unlike the name of an
entry, they may hold a zero byte. -/
def IsFileName (name : List UInt8) : Prop :=
  name ≠ [] ∧ slash ∉ name ∧ name ≠ [dot] ∧ name ≠ [dot, dot]

instance (name : List UInt8) : Decidable (IsFileName name) :=
  inferInstanceAs (Decidable (_ ∧ _ ∧ _ ∧ _))

/-- A name of an entry is one component of the paths it is joined to. -/
theorem isFileName_of_isEntryName {name : Name} (h : isEntryName name = true) :
    IsFileName name := by
  obtain ⟨hNonempty, hSlash, -, hDots⟩ := isEntryName_iff.mp h
  exact ⟨hNonempty, hSlash, hDots⟩

/-- The path that a trail leads to from another path. -/
def descend (p : Path) (trail : List Name) : Path := trail.foldl join p

@[simp] theorem descend_nil (p : Path) : p.descend [] = p := rfl

@[simp] theorem descend_cons (p : Path) (name : Name) (trail : List Name) :
    p.descend (name :: trail) = (p.join name).descend trail := rfl

/-- The bytes before the name of an entry in a directory. -/
def opened (p : Path) : List UInt8 :=
  match p.bytes.getLast? with
  | none => []
  | some b => if b = slash then p.bytes else p.bytes ++ [slash]

/-- A name is put after the path of its directory, with a slash in between if there is none. -/
theorem bytes_join (p : Path) (name : Name) : (p.join name).bytes = p.opened ++ name := by
  unfold join opened
  cases hLast : p.bytes.getLast? with
  | none => rfl
  | some b => dsimp only; split_ifs <;> simp

/-- Further names come after a slash. -/
theorem opened_join (p : Path) {name : Name} (h : IsFileName name) :
    (p.join name).opened = p.opened ++ name ++ [slash] := by
  obtain ⟨hNonempty, hSlash, -⟩ := h
  have hLast : (p.join name).bytes.getLast? = some (name.getLast hNonempty) := by
    rw [bytes_join, List.getLast?_append, List.getLast?_eq_some_getLast hNonempty, Option.some_or]
  have hOther : name.getLast hNonempty ≠ slash := by
    intro hEq
    exact hSlash (hEq ▸ List.getLast_mem hNonempty)
  rw [opened, hLast]
  simp only [if_neg hOther, bytes_join]

/-- The names of a trail with a slash before each. -/
def spelled (trail : List Name) : List UInt8 := trail.flatMap fun name => slash :: name

/-- The first name of a trail goes up to the first slash. -/
theorem takeWhile_spelled {name : Name} (h : slash ∉ name) (trail : List Name) :
    (name ++ spelled trail).takeWhile (· != slash) = name := by
  have hName : ∀ b ∈ name, (b != slash) = true := by
    intro b hb
    simp only [bne_iff_ne, ne_eq]
    rintro rfl
    exact h hb
  rw [List.takeWhile_append_of_pos hName]
  cases trail <;> simp [spelled]

/-- Trails with one spelling are the same, since names have no slashes. -/
theorem spelled_injective {s t : List Name} (hs : ∀ n ∈ s, slash ∉ n) (ht : ∀ n ∈ t, slash ∉ n)
    (h : spelled s = spelled t) : s = t := by
  induction s generalizing t with
  | nil =>
      cases t with
      | nil => rfl
      | cons b t => simp [spelled] at h
  | cons a s ih =>
      cases t with
      | nil => simp [spelled] at h
      | cons b t =>
          have hRest : a ++ spelled s = b ++ spelled t := by
            simpa [spelled] using h
          have hFirst : a = b := by
            rw [← takeWhile_spelled (hs a List.mem_cons_self) s, hRest,
              takeWhile_spelled (ht b List.mem_cons_self) t]
          subst hFirst
          rw [ih (fun n hn => hs n (List.mem_cons_of_mem _ hn))
            (fun n hn => ht n (List.mem_cons_of_mem _ hn)) (List.append_cancel_left hRest)]

/-- The names of a trail stand in its path with a slash before each but the first. -/
theorem bytes_descend (p : Path) (name : Name) (trail : List Name)
    (h : ∀ n ∈ name :: trail, IsFileName n) :
    (p.descend (name :: trail)).bytes = p.opened ++ (name ++ spelled trail) := by
  induction trail generalizing p name with
  | nil => simp [bytes_join, spelled]
  | cons next trail ih =>
      have hName : IsFileName name := h name List.mem_cons_self
      rw [descend_cons, ih (p.join name) next fun n hn => h n (List.mem_cons_of_mem _ hn),
        opened_join p hName]
      simp [spelled]

/-- Different trails lead to different paths. -/
theorem descend_injective (p : Path) {s t : List Name}
    (hs : s ≠ [] ∧ ∀ n ∈ s, isEntryName n = true) (ht : t ≠ [] ∧ ∀ n ∈ t, isEntryName n = true)
    (h : p.descend s = p.descend t) : s = t := by
  have hSlash {trail : List Name} (hTrail : ∀ n ∈ trail, isEntryName n = true) :
      ∀ n ∈ trail, slash ∉ n := fun n hn => (isEntryName_iff.mp (hTrail n hn)).2.1
  cases s with
  | nil => exact (hs.1 rfl).elim
  | cons a s =>
      cases t with
      | nil => exact (ht.1 rfl).elim
      | cons b t =>
          have hBytes := congrArg Path.bytes h
          rw [bytes_descend p a s fun n hn => isFileName_of_isEntryName (hs.2 n hn),
            bytes_descend p b t fun n hn => isFileName_of_isEntryName (ht.2 n hn)] at hBytes
          refine spelled_injective (hSlash hs.2) (hSlash ht.2) ?_
          simpa [spelled] using List.append_cancel_left hBytes

end Path

end JavaOutline
