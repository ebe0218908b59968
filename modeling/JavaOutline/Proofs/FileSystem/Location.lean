import JavaOutline.Proofs.FileSystem.Trail
import Mathlib.Data.List.Perm.Subperm

/-! Locations in a tree of entries. What is at a location is found name by name, so it can be looked
up from any location on the way, and there are no more locations of directories than directories. -/
namespace JavaOutline.Entry

@[simp] theorem at?_nil (e : Entry) : e.at? [] = some e := by
  cases e <;> rfl

theorem at?_append (e : Entry) (l m : List Name) :
    e.at? (l ++ m) = (e.at? l).bind fun d => d.at? m := by
  induction l generalizing e with
  | nil => simp
  | cons name rest ih =>
      rw [List.cons_append, at?, at?]
      cases e.child? name with
      | none => rfl
      | some c => exact ih c

theorem at?_concat (e : Entry) (l : List Name) (name : Name) :
    e.at? (l ++ [name]) = (e.at? l).bind fun d => d.child? name := by
  rw [at?_append]
  congr
  funext d
  rw [at?]
  cases d.child? name with
  | none => rfl
  | some c => exact at?_nil c

/-- Only a directory has entries. -/
theorem eq_directory_of_child? {d e : Entry} {name : Name} (h : d.child? name = some e) :
    ∃ cs, d = .directory cs ∧ cs.lookup name = some e := by
  cases d with
  | regular content => simp [child?, children] at h
  | sealed fault => simp [child?, children] at h
  | link target => simp [child?, children] at h
  | directory cs => exact ⟨cs, rfl, h⟩

/-- What is one name below a location is an entry of the directory there. -/
theorem at?_concat_eq_some {root e : Entry} {l : List Name} {name : Name}
    (h : root.at? (l ++ [name]) = some e) :
    ∃ cs, root.at? l = some (.directory cs) ∧ cs.lookup name = some e := by
  rw [at?_concat] at h
  obtain ⟨d, hd, hChild⟩ := Option.bind_eq_some_iff.mp h
  obtain ⟨cs, rfl, hLookup⟩ := eq_directory_of_child? hChild
  exact ⟨cs, hd, hLookup⟩

theorem at?_concat_of_directory {root : Entry} {l : List Name} {cs : List (Name × Entry)}
    (h : root.at? l = some (.directory cs)) (name : Name) :
    root.at? (l ++ [name]) = cs.lookup name := by
  rw [at?_concat, h]
  rfl

theorem mem_of_lookup {cs : List (Name × Entry)} {name : Name} {e : Entry}
    (h : cs.lookup name = some e) : (name, e) ∈ cs := by
  obtain ⟨before, after, rfl, -⟩ := List.lookup_eq_some_iff.mp h
  simp

/-- Where each name occurs once, every entry is the one of its name. -/
theorem lookup_of_mem {cs : List (Name × Entry)} {name : Name} {e : Entry}
    (hNodup : (cs.map Prod.fst).Nodup) (h : (name, e) ∈ cs) : cs.lookup name = some e := by
  obtain ⟨before, after, rfl⟩ := List.append_of_mem h
  refine List.lookup_eq_some_iff.mpr ⟨before, after, rfl, fun other hOther => ?_⟩
  rw [List.map_append, List.nodup_append] at hNodup
  have hNe := hNodup.2.2 other.1 (List.mem_map_of_mem hOther) name (by simp)
  exact bne_iff_ne.mpr hNe.symm

mutual

/-- The locations of the directories in an entry that can be opened. -/
def directories : Entry → List (List Name)
  | .directory cs => [] :: directoriesIn cs
  | _ => []

def directoriesIn : List (Name × Entry) → List (List Name)
  | [] => []
  | (name, e) :: rest => (directories e).map (name :: ·) ++ directoriesIn rest

end

mutual

/-- There are as many locations of directories as directories are counted. -/
theorem length_directories : ∀ e : Entry, e.directories.length = e.directoryCount
  | .regular _ => rfl
  | .sealed _ => rfl
  | .link _ => rfl
  | .directory cs => by
      rw [directories, directoryCount, List.length_cons, length_directoriesIn cs, Nat.add_comm]

theorem length_directoriesIn :
    ∀ cs : List (Name × Entry), (directoriesIn cs).length = directoryCountIn cs
  | [] => rfl
  | (_, e) :: rest => by
      rw [directoriesIn, directoryCountIn, List.length_append, List.length_map,
        length_directories e, length_directoriesIn rest]

end

theorem mem_directoriesIn {cs : List (Name × Entry)} {name : Name} {e : Entry} {l : List Name}
    (hMem : (name, e) ∈ cs) (hl : l ∈ e.directories) : name :: l ∈ directoriesIn cs := by
  induction cs with
  | nil => simp at hMem
  | cons c cs ih =>
      rw [directoriesIn, List.mem_append]
      rcases List.mem_cons.mp hMem with rfl | hRest
      · exact .inl (List.mem_map_of_mem hl)
      · exact .inr (ih hRest)

/-- Every directory that can be opened is listed under its location. -/
theorem mem_directories {e : Entry} {l : List Name} {cs : List (Name × Entry)}
    (h : e.at? l = some (.directory cs)) : l ∈ e.directories := by
  induction l generalizing e with
  | nil =>
      obtain rfl : e = .directory cs := by simpa using h
      exact List.mem_cons_self
  | cons name rest ih =>
      rw [at?] at h
      obtain ⟨c, hChild, hRest⟩ := Option.bind_eq_some_iff.mp h
      obtain ⟨inner, rfl, hLookup⟩ := eq_directory_of_child? hChild
      exact List.mem_cons_of_mem _ (mem_directoriesIn (mem_of_lookup hLookup) (ih hRest))

/-- There are no more locations of directories than directories. -/
theorem length_le_directoryCount {root : Entry} {ls : List (List Name)} (hNodup : ls.Nodup)
    (hDirectory : ∀ l ∈ ls, ∃ cs, root.at? l = some (.directory cs)) :
    ls.length ≤ root.directoryCount := by
  have hSubset : ls ⊆ root.directories := by
    intro l hl
    obtain ⟨cs, hcs⟩ := hDirectory l hl
    exact mem_directories hcs
  rw [← length_directories]
  exact (hNodup.subperm hSubset).length_le

end JavaOutline.Entry
