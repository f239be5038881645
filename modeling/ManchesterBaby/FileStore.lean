import ManchesterBaby.Text.Utf8
import ManchesterBaby.Text.Lines
import ManchesterBaby.Text.Shown

/-! Files by path. A path is followed segment by segment, and every segment before the last must
be a directory. -/

namespace ManchesterBaby

/-- The segments from the root on. -/
abbrev Path := List Text

namespace Path

def segments (t : Text) : List Text := t.pieces '/'

/-- A path as it is shown: no empty segments and no dots, which stand for the same directory.
Just two slashes at the start are kept. -/
def normal (t : Text) : Text :=
  let slashes := (t.takeWhile (· == '/')).length
  let root := if slashes = 0 then [] else if slashes = 2 then ['/', '/'] else ['/']
  let body := List.intercalate ['/'] ((segments t).filter fun s => !s.isEmpty && s != ['.'])
  if (root ++ body).isEmpty then ['.'] else root ++ body

/-- The place that a segment leads to. -/
def next (p : Path) (segment : Text) : Path :=
  if segment.isEmpty || segment = ['.'] then p
  else if segment = ['.', '.'] then p.dropLast
  else p ++ [segment]

end Path

inductive FileFault
  | missing
  | notDirectory
  | isDirectory
  | nameTooLong
  | nullCharacter
deriving DecidableEq

namespace FileFault

def message : FileFault → Text
  | missing => "[Errno 2] No such file or directory".toList
  | notDirectory => "[Errno 20] Not a directory".toList
  | isDirectory => "[Errno 21] Is a directory".toList
  | nameTooLong => "[Errno 36] File name too long".toList
  | nullCharacter => "embedded null byte".toList

/-- A path that cannot be one is not shown. -/
def text (fault : FileFault) (path : Text) : Text :=
  if fault = nullCharacter then fault.message
  else fault.message ++ ": ".toList ++ path.shown

end FileFault

inductive Node
  | directory
  | file (content : Utf8.Octets)

/-- A directory is there if it is listed, or if something is in it. -/
structure FileStore where
  here : Path
  directories : List Path
  files : List (Path × Utf8.Octets)

namespace FileStore

def isDirectory (s : FileStore) (p : Path) : Bool :=
  p.isPrefixOf s.here || s.directories.any (p.isPrefixOf ·) ||
    s.files.any fun f => p.isPrefixOf f.1 && p != f.1

def node? (s : FileStore) (p : Path) : Option Node :=
  match s.files.lookup p with
  | some content => some (.file content)
  | none => if s.isDirectory p then some .directory else none

/-- The place that segments lead to from `p`. Nothing need be there. -/
def follow (s : FileStore) (p : Path) : List Text → Except FileFault Path
  | [] => .ok p
  | segment :: rest =>
    match s.node? p with
    | none => .error .missing
    | some (.file _) => .error .notDirectory
    | some .directory =>
      if 255 < (Utf8.encode segment).length then .error .nameTooLong
      else s.follow (p.next segment) rest

def locate (s : FileStore) (t : Text) : Except FileFault Path :=
  if t.contains '\x00' then .error .nullCharacter
  else if t.isEmpty then .error .missing
  else if 4096 ≤ (Utf8.encode t).length then .error .nameTooLong
  else s.follow (if t.head? = some '/' then [] else s.here) (Path.segments t)

def stat (s : FileStore) (t : Text) : Except FileFault Node :=
  match s.locate t with
  | .error f => .error f
  | .ok p =>
    match s.node? p with
    | some node => .ok node
    | none => .error .missing

def read (s : FileStore) (t : Text) : Except FileFault Utf8.Octets :=
  match s.stat t with
  | .error f => .error f
  | .ok .directory => .error .isDirectory
  | .ok (.file content) => .ok content

def put (s : FileStore) (p : Path) (content : Utf8.Octets) : FileStore :=
  { s with files := (p, content) :: s.files.filter (·.1 != p) }

theorem lookup_put (s : FileStore) (p q : Path) (content : Utf8.Octets) :
    (s.put p content).files.lookup q = if q = p then some content else s.files.lookup q := by
  simp only [put]
  by_cases h : q = p
  · simp [h]
  · rw [if_neg h, List.lookup_cons, beq_false_of_ne h]
    induction s.files with
    | nil => rfl
    | cons f fs ih => simp only [List.filter_cons]; grind

def write (s : FileStore) (t : Text) (content : Utf8.Octets) : Except FileFault FileStore :=
  match s.locate t with
  | .error f => .error f
  | .ok p => if s.isDirectory p then .error .isDirectory else .ok (s.put p content)

end FileStore

end ManchesterBaby
