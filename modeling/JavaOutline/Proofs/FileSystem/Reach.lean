import JavaOutline.Proofs.FileSystem.Resolve
import JavaOutline.Proofs.FileSystem.Walk

/-! Which files a walk meets: exactly those that can be reached name by name, entering directories
and following links, as long as no link leads back to a directory on the way. The budget of a walk
is never used up, since the directories entered through links one inside another are different. -/
namespace JavaOutline

theorem Found.mem_filterMap_filePath? {found : List Found} {q : Path} :
    q ∈ found.filterMap filePath? ↔ .file q ∈ found := by
  rw [List.mem_filterMap]
  constructor
  · rintro ⟨x, hx, hPath⟩
    cases x with
    | file path =>
        obtain rfl : path = q := Option.some.inj hPath
        exact hx
    | failure fault => cases hPath
  · intro h
    exact ⟨_, h, rfl⟩

namespace Walk

variable {fs : FileSystem}

/-- The entry of the given name in a visited directory is a file or a link that leads to one. -/
inductive HoldsFile (fs : FileSystem) (visit : Visit) (name : Name) : Prop
  | file {content : Except FileFault (List UInt8)}
      (hEntry : fs.root.at? (visit.location ++ [name]) = some (.regular content)) :
      HoldsFile fs visit name
  | link {target : List UInt8} {content : Except FileFault (List UInt8)} {location : List Name}
      (hEntry : fs.root.at? (visit.location ++ [name]) = some (.link target))
      (hLeads : fs.resolve (visit.path.join name) = .ok location)
      (hFile : fs.root.at? location = some (.regular content)) :
      HoldsFile fs visit name

/-- The entry of the given name in the directory visited last, `visit`, is a directory or a link
that leads to one, and it can be entered: the path of a directory can be followed, and a link does
not lead back to a directory that is being walked through. -/
inductive Enters (fs : FileSystem) (visit : Visit) (visits : List Visit) (name : Name) :
    Visit → Prop
  | directory {cs : List (Name × Entry)}
      (hEntry : fs.root.at? (visit.location ++ [name]) = some (.directory cs))
      (hPath : FileSystem.pathFault? (visit.path.join name) = none) :
      Enters fs visit visits name ⟨visit.location ++ [name], visit.path.join name⟩
  | link {target : List UInt8} {location : List Name} {cs : List (Name × Entry)}
      (hEntry : fs.root.at? (visit.location ++ [name]) = some (.link target))
      (hLeads : fs.resolve (visit.path.join name) = .ok location)
      (hDirectory : fs.root.at? location = some (.directory cs))
      (hNew : ∀ v ∈ visit :: visits, v.location ≠ location) :
      Enters fs visit visits name ⟨location, visit.path.join name⟩

/-- A trail of names leads from the directory visited last to a file. -/
inductive Reaches (fs : FileSystem) : List Visit → List Name → Prop
  | file {visit : Visit} {visits : List Visit} {name : Name} (hFile : HoldsFile fs visit name) :
      Reaches fs (visit :: visits) [name]
  | inside {visit inner : Visit} {visits : List Visit} {name : Name} {rest : List Name}
      (hEnters : Enters fs visit visits name inner)
      (hRest : Reaches fs (inner :: visit :: visits) rest) :
      Reaches fs (visit :: visits) (name :: rest)

theorem HoldsFile.exists_entry {visit : Visit} {name : Name} (h : HoldsFile fs visit name) :
    ∃ e, fs.root.at? (visit.location ++ [name]) = some e := by
  cases h with
  | file hEntry => exact ⟨_, hEntry⟩
  | link hEntry _ _ => exact ⟨_, hEntry⟩

theorem Enters.exists_entry {visit inner : Visit} {visits : List Visit} {name : Name}
    (h : Enters fs visit visits name inner) :
    ∃ e, fs.root.at? (visit.location ++ [name]) = some e := by
  cases h with
  | directory hEntry _ => exact ⟨_, hEntry⟩
  | link hEntry _ _ _ => exact ⟨_, hEntry⟩

theorem Enters.path {visit inner : Visit} {visits : List Visit} {name : Name}
    (h : Enters fs visit visits name inner) : inner.path = visit.path.join name := by
  cases h <;> rfl

/-- Every trail to a file begins with an entry of the directory visited last. -/
theorem Reaches.exists_entry {visit : Visit} {visits : List Visit} {trail : List Name}
    (h : Reaches fs (visit :: visits) trail) :
    ∃ name rest e, trail = name :: rest ∧
      fs.root.at? (visit.location ++ [name]) = some e := by
  cases h with
  | file hFile =>
      obtain ⟨e, hEntry⟩ := hFile.exists_entry
      exact ⟨_, _, e, rfl, hEntry⟩
  | inside hEnters _ =>
      obtain ⟨e, hEntry⟩ := hEnters.exists_entry
      exact ⟨_, _, e, rfl, hEntry⟩

/-- A trail ends at a file of its first name, or goes on in a directory of that name. -/
theorem reaches_cons_iff {visit : Visit} {visits : List Visit} {name : Name} {rest : List Name} :
    Reaches fs (visit :: visits) (name :: rest) ↔ (rest = [] ∧ HoldsFile fs visit name) ∨
      ∃ inner, Enters fs visit visits name inner ∧ Reaches fs (inner :: visit :: visits) rest := by
  constructor
  · intro h
    cases h with
    | file hFile => exact .inl ⟨rfl, hFile⟩
    | inside hEnters hRest => exact .inr ⟨_, hEnters, hRest⟩
  · rintro (⟨rfl, hFile⟩ | ⟨inner, hEnters, hRest⟩)
    · exact .file hFile
    · exact .inside hEnters hRest

section Kinds

variable {visit : Visit} {visits : List Visit} {name : Name} {rest : List Name}

/-- A trail that comes to a file ends there. -/
theorem reaches_regular {content : Except FileFault (List UInt8)}
    (hEntry : fs.root.at? (visit.location ++ [name]) = some (.regular content)) :
    Reaches fs (visit :: visits) (name :: rest) ↔ rest = [] := by
  rw [reaches_cons_iff]
  constructor
  · rintro (⟨rfl, -⟩ | ⟨inner, hEnters, -⟩)
    · rfl
    · cases hEnters <;> simp_all
  · rintro rfl
    exact .inl ⟨rfl, .file hEntry⟩

/-- Nothing is reached in a directory that cannot be opened. -/
theorem not_reaches_sealed {fault : FileFault}
    (hEntry : fs.root.at? (visit.location ++ [name]) = some (.sealed fault)) :
    ¬ Reaches fs (visit :: visits) (name :: rest) := by
  rw [reaches_cons_iff]
  rintro (⟨-, hFile⟩ | ⟨inner, hEnters, -⟩)
  · cases hFile <;> simp_all
  · cases hEnters <;> simp_all

/-- A trail that comes to a directory goes on in it. -/
theorem reaches_directory {cs : List (Name × Entry)}
    (hEntry : fs.root.at? (visit.location ++ [name]) = some (.directory cs)) :
    Reaches fs (visit :: visits) (name :: rest) ↔
      FileSystem.pathFault? (visit.path.join name) = none ∧
        Reaches fs (⟨visit.location ++ [name], visit.path.join name⟩ :: visit :: visits) rest := by
  rw [reaches_cons_iff]
  constructor
  · rintro (⟨rfl, hFile⟩ | ⟨inner, hEnters, hRest⟩)
    · cases hFile <;> simp_all
    · cases hEnters with
      | directory _ hPath => exact ⟨hPath, hRest⟩
      | link hOther _ _ _ => simp [hEntry] at hOther
  · rintro ⟨hPath, hRest⟩
    exact .inr ⟨_, .directory hEntry hPath, hRest⟩

/-- A trail that comes to a link goes on where the link leads, unless that is a directory around
it. -/
theorem reaches_link {target : List UInt8}
    (hEntry : fs.root.at? (visit.location ++ [name]) = some (.link target)) :
    Reaches fs (visit :: visits) (name :: rest) ↔
      ∃ location, fs.resolve (visit.path.join name) = .ok location ∧
        ((∃ content, fs.root.at? location = some (.regular content)) ∧ rest = [] ∨
          (∃ cs, fs.root.at? location = some (.directory cs)) ∧
          (∀ v ∈ visit :: visits, v.location ≠ location) ∧
          Reaches fs (⟨location, visit.path.join name⟩ :: visit :: visits) rest) := by
  rw [reaches_cons_iff]
  constructor
  · rintro (⟨rfl, hFile⟩ | ⟨inner, hEnters, hRest⟩)
    · cases hFile with
      | file hOther => simp [hEntry] at hOther
      | link _ hLeads hFile => exact ⟨_, hLeads, .inl ⟨⟨_, hFile⟩, rfl⟩⟩
    · cases hEnters with
      | directory hOther _ => simp [hEntry] at hOther
      | link _ hLeads hDirectory hNew => exact ⟨_, hLeads, .inr ⟨⟨_, hDirectory⟩, hNew, hRest⟩⟩
  · rintro ⟨location, hLeads, ⟨⟨content, hFile⟩, rfl⟩ | ⟨⟨cs, hDirectory⟩, hNew, hRest⟩⟩
    · exact .inl ⟨rfl, .link hEntry hLeads hFile⟩
    · exact .inr ⟨_, .link hEntry hLeads hDirectory hNew, hRest⟩

end Kinds

/-- In a proper file system an entry has a name that can be one. -/
theorem isEntryName_of_at? (hfs : fs.Proper) {l : List Name} {name : Name} {e : Entry}
    (h : fs.root.at? (l ++ [name]) = some e) : isEntryName name = true := by
  obtain ⟨cs, hDirectory, hLookup⟩ := Entry.at?_concat_eq_some h
  have hProper : Entry.areProper cs = true := Entry.isProper_at? hfs hDirectory
  exact ((Entry.areProper_iff.mp hProper).2 name e (Entry.mem_of_lookup hLookup)).1

/-- The names of a trail to a file are names of entries. -/
theorem Reaches.names (hfs : fs.Proper) {visits : List Visit} {trail : List Name}
    (h : Reaches fs visits trail) : ∀ name ∈ trail, isEntryName name = true := by
  induction h with
  | file hFile =>
      obtain ⟨e, hEntry⟩ := hFile.exists_entry
      simpa using isEntryName_of_at? hfs hEntry
  | inside hEnters _ ih =>
      obtain ⟨e, hEntry⟩ := hEnters.exists_entry
      intro name hName
      rcases List.mem_cons.mp hName with rfl | hRest
      · exact isEntryName_of_at? hfs hEntry
      · exact ih name hRest

section Limits

variable {visit inner : Visit} {visits : List Visit} {name : Name}

/-- What a trail ends at is a file by its path too, if the path is not too long. -/
theorem HoldsFile.isFile (hfs : fs.Proper) (h : HoldsFile fs visit name)
    (hVisit : fs.resolve visit.path = .ok visit.location)
    (hLength : name.length ≤ FileSystem.nameLimit)
    (hPath : FileSystem.pathFault? (visit.path.join name) = none) :
    fs.isFile (visit.path.join name) = true := by
  cases h with
  | file hEntry =>
      have hLeads := FileSystem.resolve_join hVisit hEntry (by simp) (isEntryName_of_at? hfs hEntry)
        hLength hPath
      exact FileSystem.isFile_of_resolve hLeads hEntry
  | link _ hLeads hFile => exact FileSystem.isFile_of_resolve hLeads hFile

/-- The path by which a directory is entered leads to it. -/
theorem Enters.resolve (hfs : fs.Proper) (h : Enters fs visit visits name inner)
    (hVisit : fs.resolve visit.path = .ok visit.location)
    (hLength : name.length ≤ FileSystem.nameLimit) :
    fs.resolve inner.path = .ok inner.location := by
  cases h with
  | directory hEntry hPath =>
      exact FileSystem.resolve_join hVisit hEntry (by simp) (isEntryName_of_at? hfs hEntry) hLength
        hPath
  | link _ hLeads _ _ => exact hLeads

/-- Within the limits on names and paths, the path of what is reached leads to a file. -/
theorem Reaches.isFile (hfs : fs.Proper) {trail : List Name}
    (h : Reaches fs (visit :: visits) trail)
    (hVisit : fs.resolve visit.path = .ok visit.location)
    (hLengths : ∀ name ∈ trail, name.length ≤ FileSystem.nameLimit)
    (hPath : FileSystem.pathFault? (visit.path.descend trail) = none) :
    fs.isFile (visit.path.descend trail) = true := by
  induction trail generalizing visit visits with
  | nil =>
      obtain ⟨_, _, _, hNil, -⟩ := h.exists_entry
      cases hNil
  | cons name rest ih =>
      have hLength := hLengths name List.mem_cons_self
      rcases reaches_cons_iff.mp h with ⟨rfl, hFile⟩ | ⟨inner, hEnters, hRest⟩
      · exact hFile.isFile hfs hVisit hLength hPath
      · rw [Path.descend_cons, ← hEnters.path] at hPath ⊢
        exact ih hRest (hEnters.resolve hfs hVisit hLength)
          (fun n hn => hLengths n (List.mem_cons_of_mem _ hn)) hPath

end Limits

/-- A budget that lasts: among the directories being walked through, so many different ones are
counted that those left to be entered cannot be more than the budget. -/
def Spare (fs : FileSystem) (budget : Nat) (visits : List Visit) : Prop :=
  ∃ counted : List (List Name), counted.Nodup ∧ counted ⊆ visits.map Visit.location ∧
    (∀ l ∈ counted, ∃ cs, fs.root.at? l = some (.directory cs)) ∧
    fs.root.directoryCount < budget + counted.length

/-- The number of all directories is a budget that lasts. -/
theorem spare_initial (fs : FileSystem) (visits : List Visit) :
    Spare fs (fs.root.directoryCount + 1) visits :=
  ⟨[], .nil, by simp, by simp, by simp⟩

theorem Spare.pos {budget : Nat} {visits : List Visit} (h : Spare fs budget visits) :
    0 < budget := by
  obtain ⟨counted, hNodup, -, hDirectory, hBudget⟩ := h
  have hCount := Entry.length_le_directoryCount hNodup hDirectory
  omega

theorem Spare.cons {budget : Nat} {visits : List Visit} (h : Spare fs budget visits)
    (visit : Visit) : Spare fs budget (visit :: visits) := by
  obtain ⟨counted, hNodup, hSubset, hRest⟩ := h
  exact ⟨counted, hNodup, fun l hl => List.mem_cons_of_mem _ (hSubset hl), hRest⟩

/-- Entering a directory that is not being walked through takes one from the budget. -/
theorem Spare.enter {budget : Nat} {visits : List Visit} {visit : Visit}
    {cs : List (Name × Entry)} (h : Spare fs (budget + 1) visits)
    (hDirectory : fs.root.at? visit.location = some (.directory cs))
    (hNew : ∀ v ∈ visits, v.location ≠ visit.location) : Spare fs budget (visit :: visits) := by
  obtain ⟨counted, hNodup, hSubset, hDirectories, hBudget⟩ := h
  refine ⟨visit.location :: counted, List.nodup_cons.mpr ⟨fun hMem => ?_, hNodup⟩, ?_, ?_, ?_⟩
  · obtain ⟨v, hv, hEq⟩ := List.mem_map.mp (hSubset hMem)
    exact hNew v hv hEq
  · exact List.cons_subset_cons _ hSubset
  · intro l hl
    rcases List.mem_cons.mp hl with rfl | hl
    · exact ⟨cs, hDirectory⟩
    · exact hDirectories l hl
  · rw [List.length_cons]
    omega

/-- Ordering what is met loses nothing and adds nothing. -/
theorem mem_inOrder {groups : List (Name × List Found)} {x : Found} :
    x ∈ inOrder groups ↔ ∃ g ∈ groups, x ∈ g.2 := by
  simp only [inOrder, List.mem_flatMap, List.mem_mergeSort]

/-- What is met from a visited directory on is what its trails reach. -/
def MeetsReached (fs : FileSystem) (visits : List Visit) (path : Path) (found : List Found) :
    Prop :=
  ∀ q, .file q ∈ found ↔ ∃ trail, q = path.descend trail ∧ Reaches fs visits trail

/-- What is met at an entry of the directory visited last is what the trails that begin with its
name reach. -/
def MeetsThrough (fs : FileSystem) (visit : Visit) (visits : List Visit) (name : Name)
    (found : List Found) : Prop :=
  ∀ q, .file q ∈ found ↔
    ∃ rest, q = (visit.path.join name).descend rest ∧ Reaches fs (visit :: visits) (name :: rest)

/-- To walk through a directory, it is enough to do so at each of its entries. -/
theorem meetsReached_entries {enter : List Visit → List (Name × Entry) → List Found}
    {cs : List (Name × Entry)} (hfs : fs.Proper) (visit : Visit) (visits : List Visit)
    (hDirectory : fs.root.at? visit.location = some (.directory cs))
    (hEntries : ∀ name e, (name, e) ∈ cs →
      fs.root.at? (visit.location ++ [name]) = some e →
      MeetsThrough fs visit visits name
        (entry fs enter (visit :: visits) visit.location visit.path name e)) :
    MeetsReached fs (visit :: visits) visit.path
      (inOrder (entries fs enter (visit :: visits) visit.location visit.path cs)) := by
  have hProper : Entry.areProper cs = true := Entry.isProper_at? hfs hDirectory
  have hNodup := (Entry.areProper_iff.mp hProper).1
  have hAt := Entry.at?_concat_of_directory hDirectory
  intro q
  rw [mem_inOrder, entries_eq_map]
  constructor
  · rintro ⟨g, hg, hq⟩
    obtain ⟨⟨name, e⟩, hMem, rfl⟩ := List.mem_map.mp hg
    have hEntry := (hAt name).trans (Entry.lookup_of_mem hNodup hMem)
    obtain ⟨rest, rfl, hReaches⟩ := (hEntries name e hMem hEntry q).mp hq
    exact ⟨name :: rest, rfl, hReaches⟩
  · rintro ⟨trail, rfl, hReaches⟩
    obtain ⟨name, rest, e, rfl, hEntry⟩ := hReaches.exists_entry
    have hMem := Entry.mem_of_lookup ((hAt name).symm.trans hEntry)
    exact ⟨_, List.mem_map_of_mem hMem,
      (hEntries name e hMem hEntry _).mpr ⟨rest, rfl, hReaches⟩⟩

section Entering

variable {enter : List Visit → List (Name × Entry) → List Found} {budget : Nat}

/-- Walking through any directory meets what can be reached from it, if the budget lasts. -/
def EntersReached (fs : FileSystem) (budget : Nat)
    (enter : List Visit → List (Name × Entry) → List Found) : Prop :=
  ∀ visit visits cs, fs.root.at? visit.location = some (.directory cs) →
    Spare fs budget (visit :: visits) →
    MeetsReached fs (visit :: visits) visit.path (enter (visit :: visits) cs)

/-- What is met through a link is what its trails reach, if this holds of the directory that it
leads to. -/
theorem meetsThrough_throughLink (hEnter : EntersReached fs budget enter) {visit : Visit}
    {visits : List Visit} {name : Name} {target : List UInt8}
    (hEntry : fs.root.at? (visit.location ++ [name]) = some (.link target))
    (hSpare : Spare fs (budget + 1) (visit :: visits)) :
    MeetsThrough fs visit visits name
      (throughLink fs enter (visit :: visits) (visit.path.join name)) := by
  intro q
  simp only [reaches_link hEntry]
  unfold throughLink
  cases fs.resolve (visit.path.join name) with
  | error fault => simp
  | ok location =>
      simp only [Except.ok.injEq, exists_eq_left']
      cases hAt : fs.root.at? location with
      | none => simp
      | some e =>
          cases e with
          | regular content => simp [Path.descend]
          | sealed fault => simp
          | link other => simp
          | directory cs =>
              cases hFind : (visit :: visits).find? fun v => v.location = location with
              | some v =>
                  -- A link back to a directory that is being walked through is not followed.
                  have hOld : ¬ ∀ v ∈ visit :: visits, v.location ≠ location := fun hNew =>
                    hNew v (List.mem_of_find?_eq_some hFind) (by simpa using List.find?_some hFind)
                  simp only [hOld]
                  simp
              | none =>
                  have hNew : ∀ v ∈ visit :: visits, v.location ≠ location := by
                    simpa using hFind
                  have hInside := hEnter ⟨location, visit.path.join name⟩ _ cs hAt
                    (hSpare.enter hAt hNew) q
                  simp only [iff_true_intro hNew]
                  simpa using hInside

/-- What is met at an entry is what its trails reach, by induction on the entry: links take one from
the budget, directories do not. -/
theorem meetsThrough_entry (hfs : fs.Proper) (hEnter : EntersReached fs budget enter) (e : Entry) :
    ∀ (visit : Visit) (visits : List Visit) (name : Name),
      fs.root.at? (visit.location ++ [name]) = some e → Spare fs (budget + 1) (visit :: visits) →
      MeetsThrough fs visit visits name
        (entry fs enter (visit :: visits) visit.location visit.path name e) := by
  induction e using Entry.induct with
  | regular content =>
      intro visit visits name hEntry _ q
      simp only [reaches_regular hEntry, entry]
      simp
  | sealed fault =>
      intro visit visits name hEntry _ q
      simp [not_reaches_sealed hEntry, entry]
  | link target =>
      intro visit visits name hEntry hSpare
      rw [entry]
      exact meetsThrough_throughLink hEnter hEntry hSpare
  | directory cs ih =>
      intro visit visits name hEntry hSpare q
      simp only [reaches_directory hEntry, entry]
      cases FileSystem.pathFault? (visit.path.join name) with
      | some fault => simp
      | none =>
          have hInside := meetsReached_entries hfs ⟨visit.location ++ [name], visit.path.join name⟩
            (visit :: visits) hEntry
            (fun other e hMem hOther => ih other e hMem _ _ other hOther (hSpare.cons _)) q
          simpa using hInside

end Entering

/-- As long as the budget lasts, walking through a directory meets what can be reached. -/
theorem entersReached_directory (hfs : fs.Proper) (budget : Nat) :
    EntersReached fs budget (directory fs budget) := by
  induction budget with
  | zero =>
      intro visit visits cs _ hSpare
      exact absurd hSpare.pos (Nat.lt_irrefl 0)
  | succ budget ih =>
      intro visit visits cs hDirectory hSpare
      rw [directory]
      exact meetsReached_entries hfs visit visits hDirectory fun name e _ hEntry =>
        meetsThrough_entry hfs ih e visit visits name hEntry hSpare

end Walk

namespace FileSystem

/-- A trail of names leads from the directory of a path to a file. -/
def Reaches (fs : FileSystem) (p : Path) (trail : List Name) : Prop :=
  ∃ location, fs.resolve p = .ok location ∧ Walk.Reaches fs [⟨location, p⟩] trail

/-- A walk meets the files that can be reached. -/
theorem file_mem_walk_iff {fs : FileSystem} (hfs : fs.Proper) {p q : Path} :
    .file q ∈ fs.walk p ↔ ∃ trail, q = p.descend trail ∧ fs.Reaches p trail := by
  unfold walk Reaches
  cases fs.resolve p with
  | error fault => simp
  | ok location =>
      simp only [Except.ok.injEq, exists_eq_left']
      have hNone (hOther : ∀ cs, fs.root.at? location ≠ some (.directory cs)) :
          ¬ ∃ trail, q = p.descend trail ∧ Walk.Reaches fs [⟨location, p⟩] trail := by
        rintro ⟨trail, -, hReaches⟩
        obtain ⟨name, rest, e, -, hEntry⟩ := hReaches.exists_entry
        obtain ⟨cs, hDirectory, -⟩ := Entry.at?_concat_eq_some hEntry
        exact hOther cs hDirectory
      split
      · rename_i cs hAt
        exact Walk.entersReached_directory hfs _ ⟨location, p⟩ [] cs hAt
          (Walk.spare_initial fs _) q
      · rename_i fault hAt
        have hSealed := hNone fun cs hDirectory => by simp [hAt] at hDirectory
        split_ifs <;> simpa using hSealed
      · rename_i hOther _
        simpa using hNone hOther

theorem Reaches.names {fs : FileSystem} (hfs : fs.Proper) {p : Path} {trail : List Name}
    (h : fs.Reaches p trail) : trail ≠ [] ∧ ∀ name ∈ trail, isEntryName name = true := by
  obtain ⟨location, -, hReaches⟩ := h
  refine ⟨?_, hReaches.names hfs⟩
  obtain ⟨name, rest, -, rfl, -⟩ := hReaches.exists_entry
  exact List.cons_ne_nil name rest

/-- The path that a trail to a file leads to is that of a file, if it is not too long. -/
theorem Reaches.isFile {fs : FileSystem} (hfs : fs.Proper) {p : Path} {trail : List Name}
    (h : fs.Reaches p trail) (hLengths : ∀ name ∈ trail, name.length ≤ nameLimit)
    (hPath : pathFault? (p.descend trail) = none) : fs.isFile (p.descend trail) = true := by
  obtain ⟨location, hLeads, hReaches⟩ := h
  exact hReaches.isFile hfs hLeads hLengths hPath

/-- The files that a walk meets are at the ends of all trails that lead to a file, in strictly
increasing order of the trails. -/
theorem exists_trails_walk {fs : FileSystem} (hfs : fs.Proper) (p : Path) :
    ∃ trails : List (List Name), (fs.walk p).filterMap Found.filePath? = trails.map p.descend ∧
      trails.Pairwise (· < ·) ∧ ∀ trail, trail ∈ trails ↔ fs.Reaches p trail := by
  obtain ⟨trails, hTrails, hNil⟩ := fs.follows_walk hfs p
  have hNames (trail : List Name) (h : trail ∈ trails) :
      trail ≠ [] ∧ ∀ name ∈ trail, isEntryName name = true :=
    ⟨fun hEq => hNil (hEq ▸ h), hTrails.names trail h⟩
  have hMem (q : Path) : q ∈ trails.map p.descend ↔ ∃ trail, q = p.descend trail ∧
      fs.Reaches p trail := by
    rw [← hTrails.paths, ← file_mem_walk_iff hfs]
    exact Found.mem_filterMap_filePath?
  refine ⟨trails, hTrails.paths, hTrails.sorted, fun trail => ⟨fun h => ?_, fun h => ?_⟩⟩
  · obtain ⟨other, hEq, hReaches⟩ := (hMem _).mp (List.mem_map_of_mem h)
    rwa [p.descend_injective (hNames trail h) (hReaches.names hfs) hEq]
  · obtain ⟨other, hOther, hEq⟩ := List.mem_map.mp ((hMem _).mpr ⟨trail, rfl, h⟩)
    rwa [← p.descend_injective (hNames other hOther) (h.names hfs) hEq]

end FileSystem

end JavaOutline
