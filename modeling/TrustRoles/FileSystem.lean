import TrustRoles.Path

namespace TrustRoles

inductive FileError where
  | notFound
  | alreadyExists
  | notADirectory
  | isADirectory
  | nameTooLong
  | nulInName
  | notText
  | permissionDenied
  | other (reason : String)
  deriving DecidableEq, Repr

def FileError.message : FileError → String
  | notFound => "No such file or directory (os error 2)"
  | alreadyExists => "File exists (os error 17)"
  | notADirectory => "Not a directory (os error 20)"
  | isADirectory => "Is a directory (os error 21)"
  | nameTooLong => "File name too long (os error 36)"
  | nulInName => "file name contained an unexpected NUL byte"
  | notText => "stream did not contain valid UTF-8"
  | permissionDenied => "Permission denied (os error 13)"
  | other reason => reason

abbrev Location := List String

inductive Node where
  | file (content : List UInt8)
  | directory
  deriving DecidableEq, Repr

namespace FileSystem

def nameLimit : Nat := 255

def pathLimit : Nat := 4095

def isName (name : String) : Bool :=
  !name.isEmpty && name != "." && name != ".." && !name.toList.contains '/' &&
    !name.toList.contains '\x00' && name.utf8ByteSize ≤ nameLimit

end FileSystem

/-- A tree without links: an entry that is a link stands here as what it leads to. Names are text.
Of all rights only the one to list a directory can be missing; `closed` has the directories where it
is, with what the system says. -/
structure FileSystem where
  nodes : List (Location × Node)
  closed : List (Location × FileError)
  workingDirectory : Location
  distinct : (nodes.map Prod.fst).Nodup
  named : ∀ e ∈ nodes, ∀ name ∈ e.1, FileSystem.isName name = true
  deriving DecidableEq

namespace FileSystem

def node? (fs : FileSystem) : Location → Option Node
  | [] => some .directory
  | step :: steps => fs.nodes.lookup (step :: steps)

def closed? (fs : FileSystem) (loc : Location) : Option FileError :=
  fs.closed.lookup loc

def others (fs : FileSystem) (loc : Location) : List (Location × Node) :=
  fs.nodes.filter fun e => e.1 != loc

theorem distinct_others (fs : FileSystem) (loc : Location) :
    ((fs.others loc).map Prod.fst).Nodup :=
  fs.distinct.sublist (List.filter_sublist.map _)

theorem lookup_others {fs : FileSystem} {loc other : Location} (h : other ≠ loc) :
    (fs.others loc).lookup other = fs.nodes.lookup other := by
  unfold others
  induction fs.nodes with
  | nil => rfl
  | cons e es ih =>
      obtain ⟨at_, n⟩ := e
      by_cases he : at_ = loc
      · have hne : (other == loc) = false := by simpa using h
        simp [he, List.lookup_cons, hne, ih]
      · simp [he, List.lookup_cons, ih]

theorem not_mem_others (fs : FileSystem) (loc : Location) :
    loc ∉ (fs.others loc).map Prod.fst := by
  simp [others]

theorem named_others (fs : FileSystem) (loc : Location) :
    ∀ e ∈ fs.others loc, ∀ name ∈ e.1, isName name = true :=
  fun e he => fs.named e (List.mem_filter.mp he).1

def put (fs : FileSystem) (loc : Location) (n : Node) : FileSystem :=
  if h : ∀ name ∈ loc, isName name = true then
    { nodes := (loc, n) :: fs.others loc
      closed := fs.closed.filter fun e => e.1 != loc
      workingDirectory := fs.workingDirectory
      distinct := List.nodup_cons.mpr ⟨fs.not_mem_others loc, fs.distinct_others loc⟩
      named := List.forall_mem_cons.mpr ⟨h, fs.named_others loc⟩ }
  else fs

def erase (fs : FileSystem) (loc : Location) : FileSystem where
  nodes := fs.others loc
  closed := fs.closed
  workingDirectory := fs.workingDirectory
  distinct := fs.distinct_others loc
  named := fs.named_others loc

theorem node?_put {fs : FileSystem} {loc : Location} (h : loc ≠ [])
    (named : ∀ name ∈ loc, isName name = true) (n : Node) (other : Location) :
    (fs.put loc n).node? other = if other = loc then some n else fs.node? other := by
  rw [put, dif_pos named]
  cases other with
  | nil => simp [node?, Ne.symm h]
  | cons step steps =>
      by_cases he : step :: steps = loc
      · simp [node?, he]
      · have hne : (step :: steps == loc) = false := by simpa using he
        simp [node?, List.lookup_cons, he, hne, lookup_others he]

def bare (workingDirectory : Location) : FileSystem :=
  (List.range workingDirectory.length).foldl
    (fun fs depth => fs.put (workingDirectory.take (depth + 1)) .directory)
    ⟨[], [], workingDirectory, .nil, nofun⟩

def checkPath (p : Path) : Except FileError Unit :=
  if p.text.toList.contains '\x00' then .error .nulInName
  else if p.text.isEmpty then .error .notFound
  else if pathLimit < p.text.utf8ByteSize then .error .nameTooLong
  else .ok ()

def enter (fs : FileSystem) (loc : Location) (step : String) : Except FileError Location :=
  match fs.node? loc with
  | none => .error .notFound
  | some (.file _) => .error .notADirectory
  | some .directory =>
      if step = "." then .ok loc
      else if step = ".." then .ok loc.dropLast
      else if nameLimit < step.utf8ByteSize then .error .nameTooLong
      else .ok (loc ++ [step])

def walk (fs : FileSystem) : Location → List String → Except FileError Location
  | loc, [] => .ok loc
  | loc, step :: steps => do fs.walk (← fs.enter loc step) steps

def start (fs : FileSystem) (p : Path) : Location :=
  if p.isAbsolute then [] else fs.workingDirectory

def find (fs : FileSystem) (p : Path) : Except FileError (Location × Node) := do
  checkPath p
  let loc ← fs.walk (fs.start p) p.steps
  match fs.node? loc with
  | none => .error .notFound
  | some (.file content) =>
      if p.endsInSlash then .error .notADirectory else .ok (loc, .file content)
  | some .directory => .ok (loc, .directory)

def isPresent (fs : FileSystem) (p : Path) : Bool :=
  (fs.find p).isOk

def isDirectory (fs : FileSystem) (p : Path) : Bool :=
  match fs.find p with
  | .ok (_, .directory) => true
  | _ => false

def isFile (fs : FileSystem) (p : Path) : Bool :=
  match fs.find p with
  | .ok (_, .file _) => true
  | _ => false

def read (fs : FileSystem) (p : Path) : Except FileError (List UInt8) := do
  match ← fs.find p with
  | (_, .file content) => .ok content
  | (_, .directory) => .error .isADirectory

def childFile? (loc : Location) : Location × Node → Option String
  | (at_, .file _) => if at_.dropLast = loc then at_.getLast? else none
  | (_, .directory) => none

def fileNames (fs : FileSystem) (p : Path) : Except FileError (List String) := do
  match ← fs.find p with
  | (loc, .directory) =>
      match fs.closed? loc with
      | some e => .error e
      | none =>
          .ok ((fs.nodes.filterMap (childFile? loc)).filter fun name => fs.isFile (p.join name))
  | (_, .file _) => .error .notADirectory

def container (fs : FileSystem) (origin : Location) (reversed : List String) :
    Except FileError Location := do
  let loc ← fs.walk origin reversed.reverse
  match fs.node? loc with
  | none => .error .notFound
  | some (.file _) => .error .notADirectory
  | some .directory => .ok loc

def write (fs : FileSystem) (p : Path) (content : List UInt8) : Except FileError FileSystem := do
  checkPath p
  match p.steps.reverse with
  | [] => .error .isADirectory
  | last :: before =>
      let loc ← fs.container (fs.start p) before
      if last = "." ∨ last = ".." ∨ p.endsInSlash = true then .error .isADirectory
      else if nameLimit < last.utf8ByteSize then .error .nameTooLong
      else if fs.node? (loc ++ [last]) = some .directory then .error .isADirectory
      else .ok (fs.put (loc ++ [last]) (.file content))

def remove (fs : FileSystem) (p : Path) : Except FileError FileSystem := do
  match ← fs.find p with
  | (loc, .file _) => .ok (fs.erase loc)
  | (_, .directory) => .error .isADirectory

def makeDirectory (fs : FileSystem) (origin : Location) : List String → Except FileError FileSystem
  | [] => .error .alreadyExists
  | last :: before => do
      let loc ← fs.container origin before
      if last = "." ∨ last = ".." then .error .alreadyExists
      else if nameLimit < last.utf8ByteSize then .error .nameTooLong
      else if (fs.node? (loc ++ [last])).isSome then .error .alreadyExists
      else .ok (fs.put (loc ++ [last]) .directory)

def leadsToDirectory (fs : FileSystem) (origin : Location) (reversed : List String) : Bool :=
  match fs.walk origin reversed.reverse with
  | .ok loc => fs.node? loc == some .directory
  | .error _ => false

def makeAncestors (fs : FileSystem) (origin : Location) :
    List String → Except FileError Unit × FileSystem
  | [] => (.ok (), fs)
  | last :: before =>
      match fs.makeDirectory origin (last :: before) with
      | .ok made => (.ok (), made)
      | .error .notFound =>
          match fs.makeAncestors origin before with
          | (.error e, made) => (.error e, made)
          | (.ok (), made) =>
              match made.makeDirectory origin (last :: before) with
              | .ok final => (.ok (), final)
              | .error e =>
                  if made.leadsToDirectory origin (last :: before) then (.ok (), made)
                  else (.error e, made)
      | .error e =>
          if fs.leadsToDirectory origin (last :: before) then (.ok (), fs) else (.error e, fs)

def makeDirectories (fs : FileSystem) (p : Path) : Except FileError Unit × FileSystem :=
  if p.text.isEmpty then (.ok (), fs)
  else match checkPath p with
    | .error e => (.error e, fs)
    | .ok () => fs.makeAncestors (fs.start p) p.steps.reverse

end FileSystem

end TrustRoles
