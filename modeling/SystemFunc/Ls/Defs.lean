import SystemFunc.CString

/-!
# `io_func/recursion_ls.c`

A directory holds its entries in the order in which `readdir` returns them. `LsDir` only knows where it is by the
working directory of the process, so that every call here looks its name up there: `Cwd` is the path from the root of
the tree, or `above` the tree, where the model says nothing. A call of `LsDir` keeps its directory open; `n` is the
number of descriptors that are left.

The state remembers the working directory before and after each call for a subdirectory.
-/

namespace SystemFunc.Ls

abbrev Name := List UInt8

def EACCES : Nat := 13
def ENOENT : Nat := 2
def EMFILE : Nat := 24

/-- The entries of a directory: `self` and `parent` are `.` and `..`, and everything else that is no directory is a
`file`. -/
inductive Entries where
  | nil
  | self (rest : Entries)
  | parent (rest : Entries)
  | file (name : Name) (size : Nat) (rest : Entries)
  | dir (name : Name) (size : Nat) (searchable readable : Bool) (sub rest : Entries)

structure Dir where
  searchable : Bool
  readable : Bool
  entries : Entries

/-- What `lstat` tells of an entry. -/
inductive Node where
  | file (size : Nat)
  | dir (size : Nat) (d : Dir)

def Node.size : Node → Nat
  | .file size => size
  | .dir size _ => size

def Entries.names : Entries → List Name
  | .nil => []
  | .self rest => lit "." :: rest.names
  | .parent rest => lit ".." :: rest.names
  | .file name _ rest => name :: rest.names
  | .dir name _ _ _ _ rest => name :: rest.names

def Entries.find (name : Name) : Entries → Option Node
  | .nil => none
  | .self rest => rest.find name
  | .parent rest => rest.find name
  | .file name' size rest => if name = name' then some (.file size) else rest.find name
  | .dir name' size searchable readable sub rest =>
    if name = name' then some (.dir size ⟨searchable, readable, sub⟩) else rest.find name

/-- The subdirectory of this name. -/
def Dir.sub (d : Dir) (name : Name) : Option Dir :=
  match d.entries.find name with
  | some (.dir _ e) => some e
  | _ => none

/-- The directory with this path. -/
def Dir.lookup (root : Dir) : List Name → Option Dir
  | [] => some root
  | name :: path => (root.sub name).bind fun d => d.lookup path

/-- A name that an entry can have. -/
def IsName (name : Name) : Prop :=
  name ≠ [] ∧ 0 ∉ name ∧ 47 ∉ name ∧ name ≠ lit "." ∧ name ≠ lit ".."

/-- The names in a directory are different. -/
def Entries.Valid : Entries → Prop
  | .nil => True
  | .self rest => rest.Valid
  | .parent rest => rest.Valid
  | .file name _ rest => IsName name ∧ name ∉ rest.names ∧ rest.Valid
  | .dir name _ _ _ sub rest => IsName name ∧ name ∉ rest.names ∧ sub.Valid ∧ rest.Valid

structure Tree where
  root : Dir
  valid : root.entries.Valid

/-! ## The calls -/

inductive Cwd where
  | inside (path : List Name)
  | above
  deriving DecidableEq

/-- The tabs, the name and the size. -/
structure Line where
  level : Nat
  name : Name
  size : Nat
  deriving DecidableEq

structure State where
  cwd : Cwd
  out : List Line
  returns : List (Cwd × Cwd)

variable (root : Dir)

def workDir : Cwd → Except Stop Dir
  | .inside path => answered (root.lookup path)
  | .above => .error .disabled

/-- `opendir("./")`, and the names that `readdir` returns then. -/
def opendir (cwd : Cwd) : Except Stop (List Name) := do
  let d ← workDir root cwd
  if d.searchable ∧ d.readable then return d.entries.names else throw (.exit EACCES "open dir error")

def lstat (cwd : Cwd) (name : Name) : Except Stop Node := do
  let d ← workDir root cwd
  if d.searchable then
    match d.entries.find name with
    | some node => return node
    | none => throw (.exit ENOENT "lstat error")
  else throw (.exit EACCES "lstat error")

/-- `strcat`, to a string in an array of `size` cells. -/
def strcat (size : Nat) (dst src : List UInt8) : Except Stop (List UInt8) :=
  if dst.length + src.length < size then .ok (dst ++ src) else .error .undefined

/-- A directory that is there can be entered, if it can be searched. -/
def Cwd.Enter : Cwd → Prop
  | .inside path => ∃ d ∈ root.lookup path, d.searchable
  | .above => True

instance : DecidablePred (Cwd.Enter root)
  | .inside path => inferInstanceAs (Decidable (∃ d ∈ root.lookup path, d.searchable))
  | .above => isTrue trivial

/-- Where a path leads: `../`, or a name after `./`. -/
def Cwd.target (path : Name) : Cwd → Cwd
  | .inside names =>
    if path = lit "../" then if names = [] then .above else .inside names.dropLast
    else .inside (names ++ [path.drop 2])
  | .above => .above

/-- `chdir`, whose result nobody looks at. -/
def chdir (cwd : Cwd) (path : Name) : Cwd :=
  if cwd.Enter root ∧ (cwd.target path).Enter root then cwd.target path else cwd

/-! ## `LsDir` -/

/-- The state, and how the process has ended, if it has. -/
abbrev Res := State × Option Stop

def Res.andThen (r : Res) (f : State → Res) : Res :=
  match r.2 with
  | none => f r.1
  | some e => (r.1, some e)

/-- What follows a call that may end the process. -/
def State.call {β : Type} (s : State) (x : Except Stop β) (f : β → Res) : Res :=
  match x with
  | .ok b => f b
  | .error e => (s, some e)

/-- The body of the loop; `lsDir` is the recursive call. -/
def visit (lsDir : State → Res) (level : Nat) (name : Name) (s : State) : Res :=
  if name = lit ".." ∨ name = lit "." then (s, none)
  else s.call (lstat root s.cwd name) fun node =>
    let s := { s with out := s.out ++ [⟨level, name, node.size⟩] }
    match node with
    | .file _ => (s, none)
    | .dir _ _ => s.call (strcat 10 (lit "./") name) fun temp =>
      (lsDir { s with cwd := chdir root s.cwd temp }).andThen fun t =>
        ({ t with returns := t.returns ++ [(s.cwd, t.cwd)] }, none)

def loop (lsDir : State → Res) (level : Nat) : List Name → State → Res
  | [], s => (s, none)
  | name :: names, s => (visit root lsDir level name s).andThen (loop lsDir level names)

/-- With `n` descriptors. -/
def lsDir : Nat → Nat → State → Res
  | 0, _, s => (s, some (.exit EMFILE "open dir error"))
  | n + 1, level, s => s.call (opendir root s.cwd) fun names =>
    (loop root (lsDir n (level + 1)) level names s).andThen fun t =>
      ({ t with cwd := chdir root t.cwd (lit "../") }, none)

/-- `main`, in the root of the tree. -/
def run (n : Nat) : Res := lsDir root n 0 ⟨.inside [], [], []⟩

/-! ## What is asked of it -/

/-- Every entry once, after its directory. -/
def Entries.lines (level : Nat) : Entries → List Line
  | .nil => []
  | .self rest => rest.lines level
  | .parent rest => rest.lines level
  | .file name size rest => ⟨level, name, size⟩ :: rest.lines level
  | .dir name size _ _ sub rest => ⟨level, name, size⟩ :: (sub.lines (level + 1) ++ rest.lines level)

/-- The walk ends with an error message, or with every entry printed; it stays inside `temp`, and comes back from a
subdirectory to where it was. -/
structure Lists (n : Nat) : Prop where
  ends : (∃ errno headStr, (run root n).2 = some (.exit errno headStr)) ∨
    (run root n).2 = none ∧ (run root n).1.out = root.entries.lines 0
  inside : (run root n).2 ≠ some .undefined
  returns : ∀ c ∈ (run root n).1.returns, c.2 = c.1

/-- A subdirectory, with the number of those that are open above it. -/
structure SubDir where
  name : Name
  depth : Nat
  searchable : Bool
  readable : Bool
  deriving DecidableEq

/-- The subdirectories, in the order of the walk. -/
def Entries.dirs (depth : Nat) : Entries → List SubDir
  | .nil => []
  | .self rest => rest.dirs depth
  | .parent rest => rest.dirs depth
  | .file _ _ rest => rest.dirs depth
  | .dir name _ searchable readable sub rest =>
    ⟨name, depth, searchable, readable⟩ :: (sub.dirs (depth + 1) ++ rest.dirs depth)

/-- The root, and the subdirectories. -/
def Dir.dirs (d : Dir) (depth : Nat) : List SubDir :=
  ⟨[], depth, d.searchable, d.readable⟩ :: d.entries.dirs (depth + 1)

/-- It cannot be entered, or not be opened. -/
def SubDir.Closed (n : Nat) (d : SubDir) : Prop := d.searchable = false ∨ d.readable = false ∨ n ≤ d.depth

instance (n : Nat) : DecidablePred (SubDir.Closed n) := fun d =>
  inferInstanceAs (Decidable (d.searchable = false ∨ d.readable = false ∨ n ≤ d.depth))

end SystemFunc.Ls
