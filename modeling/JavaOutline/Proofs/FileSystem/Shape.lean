import JavaOutline.FileSystem.Walk
import JavaOutline.Proofs.FileSystem.Trail

/-! The shape of a file system: everything but the contents of its files, and whether they can be
read. Following paths and walking through directories depend on the shape alone, so two file systems
of one shape can differ only in what is read from a file. -/
namespace JavaOutline

namespace Entry

mutual

def emptied : Entry → Entry
  | .regular _ => .file []
  | .directory cs => .directory (emptiedIn cs)
  | .sealed fault => .sealed fault
  | .link target => .link target

def emptiedIn : List (Name × Entry) → List (Name × Entry)
  | [] => []
  | (name, e) :: rest => (name, emptied e) :: emptiedIn rest

end

theorem lookup_emptiedIn (cs : List (Name × Entry)) (name : Name) :
    (emptiedIn cs).lookup name = (cs.lookup name).map emptied := by
  induction cs with
  | nil => rfl
  | cons c cs ih =>
      obtain ⟨other, e⟩ := c
      rw [emptiedIn, List.lookup_cons, List.lookup_cons, ih]
      cases name == other <;> rfl

theorem child?_emptied (e : Entry) (name : Name) :
    e.emptied.child? name = (e.child? name).map emptied := by
  cases e with
  | regular content => rfl
  | sealed fault => rfl
  | link target => rfl
  | directory cs => exact lookup_emptiedIn cs name

/-- What is at a location is the same, with its files emptied. -/
@[simp] theorem at?_emptied (e : Entry) (location : List Name) :
    e.emptied.at? location = (e.at? location).map emptied := by
  induction location generalizing e with
  | nil => rfl
  | cons name rest ih =>
      rw [at?, at?, child?_emptied]
      cases e.child? name with
      | none => rfl
      | some c => exact ih c

@[simp] theorem isFile_emptied (e : Entry) : e.emptied.isFile = e.isFile := by
  cases e <;> rfl

@[simp] theorem isDirectory_emptied (e : Entry) : e.emptied.isDirectory = e.isDirectory := by
  cases e <;> rfl

mutual

/-- There are as many directories as before. -/
theorem directoryCount_emptied : ∀ e : Entry, e.emptied.directoryCount = e.directoryCount
  | .regular _ => rfl
  | .sealed _ => rfl
  | .link _ => rfl
  | .directory cs => by rw [emptied, directoryCount, directoryCount, directoryCountIn_emptied cs]

theorem directoryCountIn_emptied :
    ∀ cs : List (Name × Entry), directoryCountIn (emptiedIn cs) = directoryCountIn cs
  | [] => rfl
  | (name, e) :: rest => by
      rw [emptiedIn, directoryCountIn, directoryCountIn, directoryCount_emptied e,
        directoryCountIn_emptied rest]

end

end Entry

namespace FileSystem

def emptied (fs : FileSystem) : FileSystem := { fs with root := fs.root.emptied }

/-- Whether two file systems differ in nothing but the contents of files. -/
def SameShape (fs other : FileSystem) : Prop := fs.emptied = other.emptied

/-- Following a path never looks into a file. -/
theorem follow_emptied (root : Entry) (location steps : List Name) :
    follow root.emptied location steps = follow root location steps := by
  induction steps generalizing location with
  | nil => rfl
  | cons step rest ih =>
      rw [follow, follow, Entry.at?_emptied]
      cases hAt : root.at? location with
      | none => rfl
      | some e =>
          cases e with
          | regular content => rfl
          | sealed fault => rfl
          | link target => rfl
          | directory cs =>
              simp only [Option.map_some, Entry.emptied, ih, Entry.lookup_emptiedIn]
              cases hStep : cs.lookup step with
              | none => rfl
              | some c => cases c <;> simp only [Option.map_some, Entry.emptied]

theorem resolveSteps_emptied (root : Entry) (budget : Nat) (location steps : List Name) :
    resolveSteps root.emptied budget location steps = resolveSteps root budget location steps := by
  induction budget generalizing location steps with
  | zero =>
      rw [resolveSteps, resolveSteps, follow_emptied]
  | succ budget ih =>
      rw [resolveSteps, resolveSteps, follow_emptied]
      cases follow root location steps with
      | error fault => rfl
      | ok stop =>
          cases stop with
          | arrived l => rfl
          | atLink l target left => exact ih _ _

@[simp] theorem resolve_emptied (fs : FileSystem) (p : Path) :
    fs.emptied.resolve p = fs.resolve p := by
  simp only [resolve, locate, emptied, resolveSteps_emptied]

/-- A path leads to the same entry, with its files emptied. -/
theorem entry?_emptied (fs : FileSystem) (p : Path) :
    fs.emptied.entry? p = (fs.entry? p).map Entry.emptied := by
  unfold entry?
  rw [resolve_emptied]
  cases fs.resolve p with
  | error fault => rfl
  | ok l => exact Entry.at?_emptied fs.root l

@[simp] theorem fileExists_emptied (fs : FileSystem) (p : Path) :
    fs.emptied.fileExists p = fs.fileExists p := by
  rw [fileExists, fileExists, entry?_emptied, Option.isSome_map]

@[simp] theorem isDirectory_emptied (fs : FileSystem) (p : Path) :
    fs.emptied.isDirectory p = fs.isDirectory p := by
  rw [isDirectory, isDirectory, entry?_emptied]
  cases fs.entry? p with
  | none => rfl
  | some e => exact Entry.isDirectory_emptied e

@[simp] theorem isFile_emptied (fs : FileSystem) (p : Path) :
    fs.emptied.isFile p = fs.isFile p := by
  rw [isFile, isFile, entry?_emptied]
  cases fs.entry? p with
  | none => rfl
  | some e => exact Entry.isFile_emptied e

@[simp] theorem endsInLink_emptied (fs : FileSystem) (p : Path) :
    fs.emptied.endsInLink p = fs.endsInLink p := by
  simp only [endsInLink, emptied, resolveSteps_emptied, Entry.at?_emptied]
  split
  · rename_i l name _ _
    cases fs.root.at? (l ++ [name]) with
    | none => rfl
    | some e => cases e <;> rfl
  · rfl

end FileSystem

namespace Walk

section Entering

variable {fs : FileSystem} {enter enterEmptied : List Visit → List (Name × Entry) → List Found}

/-- A link leads to the same things, if this holds of the directory that it leads to. -/
theorem throughLink_emptied
    (hEnter : ∀ visits cs, enterEmptied visits (Entry.emptiedIn cs) = enter visits cs)
    (visits : List Visit) (path : Path) :
    throughLink fs.emptied enterEmptied visits path = throughLink fs enter visits path := by
  rw [throughLink, throughLink, FileSystem.resolve_emptied]
  cases fs.resolve path with
  | error fault => rfl
  | ok l =>
      have hAt : fs.emptied.root.at? l = (fs.root.at? l).map Entry.emptied :=
        Entry.at?_emptied fs.root l
      simp only [hAt]
      cases fs.root.at? l with
      | none => rfl
      | some e =>
          cases e with
          | regular content => rfl
          | sealed fault => rfl
          | link target => rfl
          | directory cs =>
              simp only [Option.map_some, Entry.emptied, hEnter]

mutual

/-- The same is met at an entry, by induction on the entry. -/
theorem entry_emptied
    (hEnter : ∀ visits cs, enterEmptied visits (Entry.emptiedIn cs) = enter visits cs) :
    ∀ (visits : List Visit) (location : List Name) (path : Path) (name : Name) (e : Entry),
      entry fs.emptied enterEmptied visits location path name e.emptied =
        entry fs enter visits location path name e
  | visits, location, path, name, .regular _ => rfl
  | visits, location, path, name, .sealed _ => rfl
  | visits, location, path, name, .link target => by
      rw [Entry.emptied, entry, entry, throughLink_emptied hEnter]
  | visits, location, path, name, .directory cs => by
      rw [Entry.emptied, entry, entry, entries_emptied hEnter]

theorem entries_emptied
    (hEnter : ∀ visits cs, enterEmptied visits (Entry.emptiedIn cs) = enter visits cs) :
    ∀ (visits : List Visit) (location : List Name) (path : Path) (cs : List (Name × Entry)),
      entries fs.emptied enterEmptied visits location path (Entry.emptiedIn cs) =
        entries fs enter visits location path cs
  | visits, location, path, [] => rfl
  | visits, location, path, (name, e) :: rest => by
      rw [Entry.emptiedIn, entries, entries, entry_emptied hEnter, entries_emptied hEnter]

end

end Entering

/-- The same is met in a directory, since a walk never looks into a file. -/
theorem directory_emptied (fs : FileSystem) (budget : Nat) (visits : List Visit)
    (cs : List (Name × Entry)) :
    directory fs.emptied budget visits (Entry.emptiedIn cs) = directory fs budget visits cs := by
  induction budget generalizing visits cs with
  | zero => cases visits <;> rfl
  | succ budget ih =>
      cases visits with
      | nil => rfl
      | cons visit visits => rw [directory, directory, entries_emptied ih]

end Walk

namespace FileSystem

/-- What a walk meets depends on the shape alone. -/
@[simp] theorem walk_emptied (fs : FileSystem) (p : Path) : fs.emptied.walk p = fs.walk p := by
  rw [walk, walk, resolve_emptied]
  cases fs.resolve p with
  | error fault => rfl
  | ok l =>
      have hAt : fs.emptied.root.at? l = (fs.root.at? l).map Entry.emptied :=
        Entry.at?_emptied fs.root l
      have hCount : fs.emptied.root.directoryCount = fs.root.directoryCount :=
        Entry.directoryCount_emptied fs.root
      simp only [hAt, hCount]
      cases fs.root.at? l with
      | none => rfl
      | some e =>
          cases e with
          | regular content => rfl
          | sealed fault => simp only [Option.map_some, Entry.emptied, endsInLink_emptied]
          | link target => rfl
          | directory cs => exact Walk.directory_emptied fs _ _ cs

/-- What depends on the shape alone is the same in file systems of one shape. -/
theorem SameShape.congr {fs other : FileSystem} (h : fs.SameShape other) {α : Type}
    {f : FileSystem → α} (hf : ∀ x : FileSystem, f x.emptied = f x) : f other = f fs := by
  rw [← hf other, ← hf fs, h]

/-- Walks through file systems of one shape meet the same. -/
theorem SameShape.walk {fs other : FileSystem} (h : fs.SameShape other) (p : Path) :
    other.walk p = fs.walk p :=
  h.congr (f := fun x => x.walk p) fun x => x.walk_emptied p

theorem SameShape.isDirectory {fs other : FileSystem} (h : fs.SameShape other) (p : Path) :
    other.isDirectory p = fs.isDirectory p :=
  h.congr (f := fun x => x.isDirectory p) fun x => x.isDirectory_emptied p

end FileSystem

end JavaOutline
