import JavaOutline.FileSystem.Walk
import JavaOutline.Proofs.FileSystem.Trail

/-! The files that a walk meets. Each is at the end of a trail of names below the path from which
the walk started, and the trails strictly increase name by name, so no file is met twice. This needs
only that the file system is proper: which way links lead does not matter. -/
namespace JavaOutline

/-- Whether every directory of a file system has each name once, and only names that can be one. -/
def FileSystem.Proper (fs : FileSystem) : Prop := fs.root.isProper = true

instance (fs : FileSystem) : Decidable fs.Proper := inferInstanceAs (Decidable (_ = true))

namespace Found

def filePath? : Found → Option Path
  | .file path => some path
  | .failure _ => none

/-- The files among what was met below a path are those that some trails lead to, in the order of
the trails. -/
structure Follows (path : Path) (found : List Found) (trails : List (List Name)) : Prop where
  paths : found.filterMap filePath? = trails.map path.descend
  sorted : trails.Pairwise (· < ·)
  names : ∀ trail ∈ trails, ∀ name ∈ trail, isEntryName name = true

theorem Follows.nil_of_failure (path : Path) (fault : WalkFault) :
    Follows path [.failure fault] [] := ⟨rfl, .nil, by simp⟩

/-- A file is followed by the empty trail. -/
theorem Follows.file (path : Path) : Follows path [.file path] [[]] :=
  ⟨rfl, List.pairwise_singleton _ _, by simp⟩

/-- What is met in an entry and then in later ones is in order if the name of the entry comes before
the first names of the trails to the others. -/
theorem Follows.append {path : Path} {name : Name} {found rest : List Found}
    {trails others : List (List Name)} (hName : isEntryName name = true)
    (h : Follows (path.join name) found trails) (hRest : Follows path rest others)
    (hLater : ∀ trail ∈ others, ∃ next tail, trail = next :: tail ∧ name < next) :
    Follows path (found ++ rest) (trails.map (name :: ·) ++ others) := by
  refine ⟨?_, ?_, ?_⟩
  · rw [List.filterMap_append, h.paths, hRest.paths, List.map_append, List.map_map]
    rfl
  · rw [List.pairwise_append, List.pairwise_map]
    refine ⟨h.sorted.imp fun hlt => List.cons_lt_cons_iff.mpr (.inr ⟨rfl, hlt⟩), hRest.sorted, ?_⟩
    rintro first hFirst second hSecond
    obtain ⟨trail, -, rfl⟩ := List.mem_map.mp hFirst
    obtain ⟨next, tail, rfl, hlt⟩ := hLater second hSecond
    exact List.cons_lt_cons_iff.mpr (.inl hlt)
  · intro trail hTrail n hn
    rcases List.mem_append.mp hTrail with hFirst | hOther
    · obtain ⟨inner, hInner, rfl⟩ := List.mem_map.mp hFirst
      rcases List.mem_cons.mp hn with rfl | hn
      · exact hName
      · exact h.names inner hInner n hn
    · exact hRest.names trail hOther n hn

end Found

namespace Walk

open Found

theorem nameLe_iff {a b : Name} : nameLe a b = true ↔ a ≤ b := decide_eq_true_iff

/-- Groups with different names come in strict order. -/
theorem pairwise_mergeSort_nameLe {groups : List (Name × List Found)}
    (h : (groups.map Prod.fst).Nodup) :
    (groups.mergeSort fun a b => nameLe a.1 b.1).Pairwise fun a b => a.1 < b.1 := by
  have hSorted : (groups.mergeSort fun a b => nameLe a.1 b.1).Pairwise fun a b =>
      nameLe a.1 b.1 = true := by
    refine List.pairwise_mergeSort (fun a b c hab hbc => ?_) (fun a b => ?_) groups
    · exact nameLe_iff.mpr (List.le_trans (nameLe_iff.mp hab) (nameLe_iff.mp hbc))
    · rw [Bool.or_eq_true, nameLe_iff, nameLe_iff]
      exact List.le_total a.1 b.1
  have hDistinct : (groups.mergeSort fun a b => nameLe a.1 b.1).Pairwise fun a b => a.1 ≠ b.1 := by
    have hPerm := (List.mergeSort_perm groups fun a b => nameLe a.1 b.1).map Prod.fst
    exact List.pairwise_map.mp (hPerm.nodup_iff.mpr h)
  refine hSorted.imp₂ (fun a b hle hne => ?_) hDistinct
  rcases List.le_iff_lt_or_eq.mp (nameLe_iff.mp hle) with hlt | heq
  · exact hlt
  · exact (hne heq).elim

/-- What is met name by name in strict order follows trails that begin with these names. -/
theorem follows_flatMap (path : Path) {groups : List (Name × List Found)}
    (hSorted : groups.Pairwise fun a b => a.1 < b.1)
    (hGroups : ∀ g ∈ groups, isEntryName g.1 = true ∧
      ∃ trails, Follows (path.join g.1) g.2 trails) :
    ∃ trails, Follows path (groups.flatMap fun g => g.2) trails ∧
      ∀ trail ∈ trails, ∃ g ∈ groups, ∃ tail, trail = g.1 :: tail := by
  induction groups with
  | nil => exact ⟨[], ⟨rfl, .nil, by simp⟩, by simp⟩
  | cons g groups ih =>
      obtain ⟨hBefore, hRest⟩ := List.pairwise_cons.mp hSorted
      obtain ⟨others, hOthers, hHeads⟩ :=
        ih hRest fun other hOther => hGroups other (List.mem_cons_of_mem _ hOther)
      obtain ⟨hName, trails, hTrails⟩ := hGroups g List.mem_cons_self
      refine ⟨trails.map (g.1 :: ·) ++ others, ?_, ?_⟩
      · refine hTrails.append hName hOthers fun trail hTrail => ?_
        obtain ⟨other, hOther, tail, rfl⟩ := hHeads trail hTrail
        exact ⟨other.1, tail, rfl, hBefore other hOther⟩
      · intro trail hTrail
        rcases List.mem_append.mp hTrail with hFirst | hOther
        · obtain ⟨inner, -, rfl⟩ := List.mem_map.mp hFirst
          exact ⟨g, List.mem_cons_self, inner, rfl⟩
        · obtain ⟨other, hMem, hHead⟩ := hHeads trail hOther
          exact ⟨other, List.mem_cons_of_mem _ hMem, hHead⟩

/-- Putting the entries of a directory in order puts the trails in order, whatever order the
directory has them in. -/
theorem follows_inOrder {path : Path} {groups : List (Name × List Found)}
    (hNodup : (groups.map Prod.fst).Nodup)
    (hGroups : ∀ g ∈ groups, isEntryName g.1 = true ∧
      ∃ trails, Follows (path.join g.1) g.2 trails) :
    ∃ trails, Follows path (inOrder groups) trails ∧ [] ∉ trails := by
  obtain ⟨trails, hTrails, hHeads⟩ :=
    follows_flatMap path (pairwise_mergeSort_nameLe hNodup)
      fun g hg => hGroups g (List.mem_mergeSort.mp hg)
  refine ⟨trails, hTrails, fun hNil => ?_⟩
  obtain ⟨g, -, tail, hEq⟩ := hHeads [] hNil
  cases hEq

section Entering

variable {fs : FileSystem} {enter : List Visit → List (Name × Entry) → List Found}

/-- The entries of a directory are met one by one, each under its name. -/
theorem entries_eq_map (visits : List Visit) (location : List Name) (path : Path)
    (cs : List (Name × Entry)) :
    entries fs enter visits location path cs =
      cs.map fun c => (c.1, entry fs enter visits location path c.1 c.2) := by
  induction cs with
  | nil => rfl
  | cons c cs ih => rw [entries, ih, List.map_cons]

/-- To enter a proper directory is to follow trails below the path by which it is visited. -/
def EntersInOrder (enter : List Visit → List (Name × Entry) → List Found) : Prop :=
  ∀ visit visits cs, Entry.areProper cs = true →
    ∃ trails, Follows visit.path (enter (visit :: visits) cs) trails ∧ [] ∉ trails

/-- The trails through a directory are those through its entries, each with the name of its entry
before it, in the order of the names. -/
theorem follows_entries {visits : List Visit} {location : List Name} {path : Path}
    {cs : List (Name × Entry)} (hProper : Entry.areProper cs = true)
    (hEntries : ∀ name e, (name, e) ∈ cs → e.isProper = true →
      ∃ trails, Follows (path.join name) (entry fs enter visits location path name e) trails) :
    ∃ trails, Follows path (inOrder (entries fs enter visits location path cs)) trails ∧
      [] ∉ trails := by
  obtain ⟨hNodup, hEach⟩ := Entry.areProper_iff.mp hProper
  rw [entries_eq_map]
  refine follows_inOrder ?_ ?_
  · rw [List.map_map]
    exact hNodup
  · intro g hg
    obtain ⟨⟨name, e⟩, hMem, rfl⟩ := List.mem_map.mp hg
    obtain ⟨hName, hEntry⟩ := hEach name e hMem
    exact ⟨hName, hEntries name e hMem hEntry⟩

/-- The trails through a link are those through the directory it leads to. -/
theorem follows_throughLink (hfs : fs.Proper) (hEnter : EntersInOrder enter)
    (visits : List Visit) (path : Path) :
    ∃ trails, Follows path (throughLink fs enter visits path) trails := by
  unfold throughLink
  cases fs.resolve path with
  | error fault => exact ⟨[], .nil_of_failure path _⟩
  | ok location =>
      dsimp only
      cases hAt : fs.root.at? location with
      | none => exact ⟨[], .nil_of_failure path _⟩
      | some e =>
          cases e with
          | regular content => exact ⟨[[]], .file path⟩
          | sealed fault => exact ⟨[], .nil_of_failure path _⟩
          | link target => exact ⟨[], .nil_of_failure path _⟩
          | directory cs =>
              dsimp only
              cases visits.find? fun v => v.location = location with
              | some visit => exact ⟨[], .nil_of_failure path _⟩
              | none =>
                  have hProper : Entry.areProper cs = true := Entry.isProper_at? hfs hAt
                  obtain ⟨trails, hTrails, -⟩ := hEnter ⟨location, path⟩ visits cs hProper
                  exact ⟨trails, hTrails⟩

/-- What is met at an entry follows trails, by induction on the entry. -/
theorem follows_entry (hfs : fs.Proper) (hEnter : EntersInOrder enter) (e : Entry) :
    ∀ (visits : List Visit) (location : List Name) (path : Path) (name : Name),
      e.isProper = true →
      ∃ trails, Follows (path.join name) (entry fs enter visits location path name e) trails := by
  induction e using Entry.induct with
  | regular content =>
      intro visits location path name _
      exact ⟨[[]], by rw [entry]; exact .file _⟩
  | sealed fault =>
      intro visits location path name _
      exact ⟨[], by rw [entry]; exact .nil_of_failure _ _⟩
  | link target =>
      intro visits location path name _
      rw [entry]
      exact follows_throughLink hfs hEnter visits (path.join name)
  | directory cs ih =>
      intro visits location path name hProper
      rw [entry]
      dsimp only
      cases FileSystem.pathFault? (path.join name) with
      | some fault => exact ⟨[], .nil_of_failure _ _⟩
      | none =>
          obtain ⟨trails, hTrails, -⟩ := follows_entries hProper
            fun other e hMem hEntry => ih other e hMem _ _ (path.join name) other hEntry
          exact ⟨trails, hTrails⟩

end Entering

/-- However many directories may still be entered through links, each is entered in order. -/
theorem entersInOrder_directory {fs : FileSystem} (hfs : fs.Proper) (budget : Nat) :
    EntersInOrder (directory fs budget) := by
  induction budget with
  | zero =>
      intro visit visits cs _
      exact ⟨[], ⟨rfl, .nil, by simp⟩, by simp⟩
  | succ budget ih =>
      intro visit visits cs hProper
      rw [directory]
      exact follows_entries hProper fun name e _ hEntry =>
        follows_entry hfs ih e _ _ visit.path name hEntry

end Walk

open Found

/-- The files that a walk meets are at the ends of trails that strictly increase. -/
theorem FileSystem.follows_walk {fs : FileSystem} (hfs : fs.Proper) (p : Path) :
    ∃ trails, Follows p (fs.walk p) trails ∧ [] ∉ trails := by
  have hNone : ∃ trails, Follows p [] trails ∧ [] ∉ trails := ⟨[], ⟨rfl, .nil, by simp⟩, by simp⟩
  unfold FileSystem.walk
  cases fs.resolve p with
  | error fault => exact hNone
  | ok location =>
      dsimp only
      cases hAt : fs.root.at? location with
      | none => exact hNone
      | some e =>
          cases e with
          | regular content => exact hNone
          | sealed fault =>
              -- A root that cannot be opened is all that is met.
              dsimp only
              split_ifs
              · exact ⟨[], .nil_of_failure p _, by simp⟩
              · exact ⟨[], .nil_of_failure p _, by simp⟩
          | link target => exact hNone
          | directory cs =>
              exact Walk.entersInOrder_directory hfs _ ⟨location, p⟩ [] cs
                (Entry.isProper_at? hfs hAt)

/-- No file is met twice. -/
theorem FileSystem.nodup_walk {fs : FileSystem} (hfs : fs.Proper) (p : Path) :
    ((fs.walk p).filterMap filePath?).Nodup := by
  obtain ⟨trails, hTrails, hNil⟩ := fs.follows_walk hfs p
  rw [hTrails.paths]
  have hDistinct : trails.Pairwise (· ≠ ·) := by
    refine hTrails.sorted.imp fun hlt heq => ?_
    subst heq
    exact List.lt_irrefl _ hlt
  refine List.pairwise_map.mpr (hDistinct.imp_of_mem fun {s t} hs ht hne heq => hne ?_)
  refine p.descend_injective ⟨?_, hTrails.names s hs⟩ ⟨?_, hTrails.names t ht⟩ heq
  · rintro rfl
    exact hNil hs
  · rintro rfl
    exact hNil ht

end JavaOutline
