import Caretaker.Container.Basic
import Caretaker.Text.Number
import Caretaker.Text.Utf8

/-!
# Archives of files

Files travel to a container in a tape archive: for each file a header of one block, the bytes of the
file and zeros up to the end of the last block, and two empty blocks after all.  A name that does
not fit into the header travels in an entry of its own before it.
-/

namespace Caretaker.Engine.Archive

/-- The bytes of an archive, or of a part of it. -/
abbrev Bytes := List UInt8

/-- The size of a block. -/
def blockSize : Nat := 512

/-- The room for a name in a header. -/
def nameSize : Nat := 100

/-- Bytes filled up with zeros to `width`. -/
def field (width : Nat) (bytes : Bytes) : Bytes := bytes ++ List.replicate (width - bytes.length) 0

/-- Zeros that fill the last block of some bytes. -/
def padding (size : Nat) : Bytes :=
  List.replicate ((blockSize - size % blockSize) % blockSize) 0

/-- A number in octal digits that fill a field but for the zero at its end. -/
def octal (width n : Nat) : Bytes :=
  field width ((Text.paddedDigits 8 (width - 1) n).map fun c => UInt8.ofNat c.toNat)

/-- The last `count` bytes of a number, the greatest first. -/
def bigEndian : (count n : Nat) → Bytes
  | 0, _ => []
  | count + 1, n => bigEndian count (n / 256) ++ [UInt8.ofNat (n % 256)]

/-- A size in a field of twelve bytes: octal digits, or, if it has too many of them, its bytes
behind a mark. -/
def sizeField (n : Nat) : Bytes :=
  if n < 0o100000000000 then octal 12 n else [0x80, 0, 0, 0] ++ bigEndian 8 n

/-- The bytes of a text in ASCII. -/
def ascii (text : String) : Bytes := Utf8.encode text

/-- The kind of an entry. -/
inductive Kind where
  | file
  /-- The name of the entry that follows. -/
  | longName
deriving DecidableEq, Repr

/-- The byte for the kind of an entry. -/
def Kind.byte : Kind → UInt8
  | file => 0
  | longName => 'L'.toUInt8

/-- The fields of a header before its checksum: name, mode, owner, size and time. -/
def headerStart (name : Bytes) (kind : Kind) (size : Nat) : Bytes :=
  let owner := match kind with
    | .file => List.replicate 16 0
    | .longName => octal 8 0 ++ octal 8 0
  let mode := match kind with
    | .file => 0o600
    | .longName => 0o644
  field nameSize name ++ octal 8 mode ++ owner ++ sizeField size ++ octal 12 0

/-- The fields of a header after its checksum. -/
def headerEnd (kind : Kind) : Bytes :=
  field 349 (kind.byte :: List.replicate 100 0 ++ ascii "ustar  ")
    |>.append (List.replicate 7 0)

/-- The sum of some bytes. -/
def sum (bytes : Bytes) : Nat := bytes.foldl (fun n b => n + b.toNat) 0

/-- The header of an entry; the checksum counts its own field as blanks. -/
def header (name : Bytes) (kind : Kind) (size : Nat) : Bytes :=
  let front := headerStart name kind size
  let back := headerEnd kind
  front ++ octal 8 (sum front + 8 * 0x20 + sum back) ++ back

/-- An entry: its header, its bytes, and zeros up to the end of the block. -/
def entry (name : Bytes) (kind : Kind) (contents : Bytes) : Bytes :=
  header name kind contents.length ++ contents ++ padding contents.length

/-! ## Names -/

/-- A part of a path. -/
inductive Component where
  | root
  | here
  | above
  | named (name : Bytes)
deriving DecidableEq, Repr

/-- The byte between the parts of a path. -/
def slash : UInt8 := '/'.toUInt8

/-- The pieces of a path between its slashes. -/
def pieces : Bytes → List Bytes
  | [] => [[]]
  | b :: bytes =>
    if b = slash then [] :: pieces bytes
    else
      match pieces bytes with
      | [] => [[b]]
      | piece :: rest => (b :: piece) :: rest

/-- What a piece of a path stands for; a dot counts at the start of a path only. -/
def component? (isFirst : Bool) (piece : Bytes) : Option Component :=
  if piece = [] then none
  else if piece = ascii "." then (if isFirst then some .here else none)
  else if piece = ascii ".." then some .above
  else some (.named piece)

/-- The parts of a path: repeated slashes and inner dots do not count. -/
def components (path : Bytes) : List Component :=
  match pieces path with
  | [] => []
  | first :: rest =>
    (if path.head? = some slash then some .root else component? true first).toList
    ++ rest.filterMap (component? false)

/-- Why a path cannot be the name of an entry. -/
inductive PathFault where
  | notRelative
  | above
  | empty
  | nul
  | tooLong
deriving DecidableEq, Repr

/-- The wording of what is wrong with a path. -/
def PathFault.message : PathFault → String
  | notRelative => "paths in archives must be relative"
  | above => "paths in archives must not have \x60..\x60"
  | empty => "paths in archives must have at least one component"
  | nul => "provided value contains a nul byte"
  | tooLong => "provided value is too long"

/-- Bytes put after others in a field of `nameSize`. -/
def put (written bytes : Bytes) : Except (PathFault × Bytes) Bytes :=
  if nameSize < written.length + bytes.length then .error (.tooLong, written)
  else if bytes.contains 0 then .error (.nul, written)
  else .ok (written ++ bytes)

/-- The parts of a path put after others, slashes between them.  A path that was cut may end in what
looks like the directory above.  A fault comes with what was written before it. -/
def putComponents (isCut isOnly : Bool) :
    (written : Bytes) → (needsSlash : Bool) → List Component → Except (PathFault × Bytes) Bytes
  | written, _, [] => .ok written
  | written, needsSlash, component :: rest => do
    let name ←
      match component with
      | .root => .error (.notRelative, written)
      | .above =>
        if isCut && rest.isEmpty then .ok (some (ascii "..")) else .error (.above, written)
      | .here => .ok (if isOnly then some (ascii ".") else none)
      | .named name => .ok (some name)
    match name with
    | none => putComponents isCut isOnly written needsSlash rest
    | some name =>
      let written ← if needsSlash then put written [slash] else .ok written
      let written ← put written name
      putComponents isCut isOnly written true rest

/-- The name of a path in a header. -/
def headerName (isCut : Bool) (path : Bytes) : Except (PathFault × Bytes) Bytes := do
  let parts := components path
  let written ← putComponents isCut (parts.length == 1) [] false parts
  if parts.isEmpty then .error (.empty, written)
  if path.getLast? = some slash then put written [slash] else .ok written

/-- The wording of a fault in a path, with what could be written of it. -/
def faultMessage (fault : PathFault × Bytes) : String :=
  s!"{fault.1.message} when setting path for " ++ String.ofList (Utf8.decodeLossy fault.2)

/-- The entry that carries a long name. -/
def longName (path : Bytes) : Bytes :=
  entry (ascii "././@LongLink") .longName (path ++ [0])

/-- The entries for a file.  A path that cannot be a name and is long travels in an entry of its
own, and the header of the file then holds the start of it. -/
def fileEntries (path : String) (contents : Bytes) : Except String Bytes :=
  let bytes := Utf8.encode path
  match headerName false bytes with
  | .ok name => .ok (entry name .file contents)
  | .error fault =>
    if bytes.length < nameSize then .error (faultMessage fault)
    else
      match headerName true (Utf8.wholePart (bytes.take nameSize)) with
      | .ok name => .ok (longName bytes ++ entry name .file contents)
      | .error fault => .error (faultMessage fault)

/-- The end of an archive. -/
def ending : Bytes := List.replicate (2 * blockSize) 0

/-- The archive of some files, in the order of their names. -/
def ofFiles (files : Dictionary Bytes) : Except String Bytes := do
  let entries ← files.entries.mapM fun (path, contents) => fileEntries path contents
  return entries.flatten ++ ending

end Caretaker.Engine.Archive
