import Caretaker.Proofs.Headers

/-!
# Unpacking an archive

An archive is read entry by entry: a header, the blocks of the contents, and so on until two empty
blocks are all that is left.  A long name is kept for the entry behind it.  What the files were
packed into is unpacked to the same files.

Main definitions:

- `next?`: the entry at the start of what is left of an archive.
- `members?`: the files in what is left of an archive.

Main statements:

- `next?_entry`: an entry is read as it was written.
- `members?_fileEntries`: the entries of a file are read as that file.
- `unpack_ofFiles`: an archive of files unpacks to the files.
-/

namespace Caretaker.Engine.Archive

open Text (maxU64)
open Utf8 (encode)

/-! ## Reading an archive -/

/-- The whole blocks that hold some contents, in bytes. -/
def roomFor (size : Nat) : Nat := (size + (blockSize - 1)) / blockSize * blockSize

/-- The entry at the start of an archive: what its header says, its contents, and what follows.
Zeros fill up the last block of the contents. -/
def next? (bytes : Bytes) : Option (Label × Bytes × Bytes) := do
  let label ← label? (bytes.take blockSize)
  let data := bytes.drop blockSize
  let unused := roomFor label.size - label.size
  guard (roomFor label.size ≤ data.length)
  guard (slice label.size unused data = List.replicate unused 0)
  return (label, data.take label.size, data.drop (roomFor label.size))

theorem length_of_label? {block : Bytes} {label : Label} (h : label? block = some label) :
    block.length = blockSize := by
  by_cases hlength : block.length = blockSize
  · exact hlength
  · unfold label? guard at h
    rw [if_neg hlength] at h
    cases h

theorem length_of_next? {bytes contents rest : Bytes} {label : Label}
    (h : next? bytes = some (label, contents, rest)) : rest.length < bytes.length := by
  unfold next? guard at h
  simp only [Option.bind_eq_bind, Option.bind_eq_some_iff] at h
  obtain ⟨label', hlabel, -, -, -, -, hrest⟩ := h
  cases hrest
  have hblock : (bytes.take blockSize).length = 512 := length_of_label? hlabel
  rw [List.length_take] at hblock
  simp only [List.length_drop, blockSize] at hblock ⊢
  omega

/-- A regular file in an archive. -/
structure Member where
  name : Bytes
  mode : Nat
  contents : Bytes
deriving DecidableEq, Repr

/-- The files in the rest of an archive, if there is nothing else in it.  The name of the next one
may have been read already.  A name with a slash at its end would be that of a directory. -/
def members? (long? : Option Bytes) (bytes : Bytes) : Option (List Member) :=
  if bytes = List.replicate (2 * blockSize) 0 then
    if long?.isNone then some [] else none
  else
    match _h : next? bytes with
    | none => none
    | some (label, contents, rest) =>
      if label.flag = 'L'.toUInt8 then members? (some (textOf contents)) rest
      else
        let name := long?.getD label.name
        if (label.flag = 0 ∨ label.flag = '0'.toUInt8) ∧ name.getLast? ≠ some slash then
          (members? none rest).map ({ name, mode := label.mode, contents } :: ·)
        else none
termination_by bytes.length
decreasing_by all_goals exact length_of_next? _h

/-! ## One entry -/

theorem roomFor_eq (size : Nat) : roomFor size = size + (padding size).length := by
  rw [padding, List.length_replicate]
  unfold roomFor blockSize
  omega

theorem padding_eq (size : Nat) : padding size = List.replicate (padding size).length 0 := by
  rw [padding, List.length_replicate]

/-- An entry is read as it was written, whatever follows. -/
theorem next?_entry {name contents : Bytes} (kind : Kind) (rest : Bytes)
    (hname : name.length ≤ nameSize) (hsize : contents.length ≤ maxU64) :
    next? (entry name kind contents ++ rest) =
      some ({ name := textOf name, mode := kind.mode, size := contents.length, flag := kind.byte },
        contents, rest) := by
  have hheader : (header name kind contents.length).length = blockSize := length_header hname
  have hbytes : entry name kind contents ++ rest =
      header name kind contents.length ++ (contents ++ (padding contents.length ++ rest)) := by
    simp only [entry, List.append_assoc]
  have hunused : roomFor contents.length - contents.length = (padding contents.length).length := by
    rw [roomFor_eq]
    omega
  have hfill : slice contents.length (padding contents.length).length
      (contents ++ (padding contents.length ++ rest)) = padding contents.length := by
    rw [slice_append_right (Nat.le_refl _), Nat.sub_self, slice_append_left (by omega),
      slice_all rfl]
  have hroom :
      roomFor contents.length ≤ (contents ++ (padding contents.length ++ rest)).length := by
    simp only [roomFor_eq, List.length_append]
    omega
  have hrest : (contents ++ (padding contents.length ++ rest)).drop (roomFor contents.length) =
      rest := by
    rw [← List.append_assoc]
    exact List.drop_left' (by rw [List.length_append, roomFor_eq])
  unfold next? guard
  rw [hbytes, List.take_left' hheader, List.drop_left' hheader, label?_header hname hsize]
  simp only [Option.bind_eq_bind, Option.bind_some, hunused, hfill, hrest, ← padding_eq,
    if_pos hroom, List.take_left]
  rfl

/-- An empty block is no header, since there is no number in it. -/
theorem next?_zeros : next? (List.replicate (2 * blockSize) 0) = none := by
  have hblock : (List.replicate (2 * blockSize) (0 : UInt8)).take blockSize =
      List.replicate blockSize 0 := List.take_replicate
  have hslice : slice 100 8 (List.replicate blockSize 0) = List.replicate 8 0 := by
    rw [slice, List.drop_replicate, List.take_replicate]
    rfl
  have hblank : number? (List.replicate 8 0) = none := by decide
  have hlabel : label? (List.replicate blockSize 0) = none := by
    unfold label?
    rw [hslice, hblank, List.length_replicate]
    rfl
  unfold next?
  rw [hblock, hlabel]
  rfl

section members?

variable {long? : Option Bytes} {bytes contents rest : Bytes} {label : Label}

theorem members?_of_next? (h : next? bytes = some (label, contents, rest)) :
    members? long? bytes =
      if label.flag = 'L'.toUInt8 then members? (some (textOf contents)) rest
      else
        if (label.flag = 0 ∨ label.flag = '0'.toUInt8) ∧
            (long?.getD label.name).getLast? ≠ some slash then
          (members? none rest).map
            ({ name := long?.getD label.name, mode := label.mode, contents } :: ·)
        else none := by
  have hmore : bytes ≠ List.replicate (2 * blockSize) 0 := by
    rintro rfl
    rw [next?_zeros] at h
    cases h
  rw [members?, if_neg hmore]
  split
  · next hnone =>
    rw [h] at hnone
    cases hnone
  · next hsome =>
    rw [h] at hsome
    cases hsome
    rfl

/-- Two empty blocks end an archive. -/
theorem members?_ending : members? none ending = some [] := by
  rw [members?]
  exact if_pos rfl

theorem length_linkName : (ascii "././@LongLink").length ≤ nameSize := by
  rw [length_ascii]
  decide

/-- A long name is kept for the next entry. -/
theorem members?_longName {path : Bytes} (hnul : 0 ∉ path) (hsize : path.length < maxU64) :
    members? long? (longName path ++ rest) = members? (some path) rest := by
  have hfits : (path ++ [0]).length ≤ maxU64 := by
    rw [List.length_append]
    exact hsize
  have htext : textOf (path ++ [0]) = path := by
    have hfield : path ++ [0] = field (path.length + 1) path := by
      simp [field]
    rw [hfield, textOf_field, textOf_of_notMem hnul]
  rw [longName, members?_of_next? (next?_entry .longName rest length_linkName hfits), htext]
  rfl

/-- A file is read with the long name before it, or with its own. -/
theorem members?_file {name : Bytes} (hname : name.length ≤ nameSize)
    (hsize : contents.length ≤ maxU64)
    (hslash : (long?.getD (textOf name)).getLast? ≠ some slash) :
    members? long? (entry name .file contents ++ rest) =
      (members? none rest).map
        ({ name := long?.getD (textOf name), mode := 0o600, contents } :: ·) := by
  have hfile : Kind.file.byte ≠ 'L'.toUInt8 := by decide
  rw [members?_of_next? (next?_entry .file rest hname hsize), if_neg hfile,
    if_pos ⟨.inl rfl, hslash⟩]
  rfl

end members?

/-! ## The files -/

/-- What a file is unpacked to. -/
def memberOf (file : String × Bytes) : Member :=
  { name := encode file.1, mode := 0o600, contents := file.2 }

theorem blockSize_dvd_length_entry {name : Bytes} (kind : Kind) (contents : Bytes)
    (hname : name.length ≤ nameSize) : blockSize ∣ (entry name kind contents).length := by
  have hheader : (header name kind contents.length).length = 512 := length_header hname
  rw [entry, List.length_append, List.length_append, hheader, padding, List.length_replicate]
  unfold blockSize
  omega

/-- The entries of a file fill whole blocks and are read as that file, whatever follows. -/
theorem members?_fileEntries {path : String} {contents : Bytes} (h : IsPlain path)
    (hpath : (encode path).length < maxU64) (hcontents : contents.length ≤ maxU64) :
    ∃ entries, fileEntries path contents = .ok entries ∧ blockSize ∣ entries.length ∧
      ∀ rest, members? none (entries ++ rest) =
        (members? none rest).map (memberOf (path, contents) :: ·) := by
  have hslash : (encode path).getLast? ≠ some slash := h.bytes.getLast?_ne_slash
  by_cases hfits : (encode path).length ≤ nameSize
  · have htext : textOf (encode path) = encode path := textOf_of_notMem h.bytes.nul
    refine ⟨entry (encode path) .file contents, fileEntries_of_le contents h hfits,
      blockSize_dvd_length_entry .file contents hfits, ?_⟩
    intro rest
    rw [members?_file hfits hcontents (by rwa [Option.getD_none, htext]), Option.getD_none, htext]
    rfl
  · obtain ⟨name, hname, hentries⟩ := fileEntries_of_lt contents h (Nat.lt_of_not_le hfits)
    refine ⟨longName (encode path) ++ entry name .file contents, hentries, ?_, ?_⟩
    · rw [List.length_append]
      exact Nat.dvd_add (blockSize_dvd_length_entry .longName _ length_linkName)
        (blockSize_dvd_length_entry .file contents hname)
    · intro rest
      have hlong : ((some (encode path)).getD (textOf name)).getLast? ≠ some slash := hslash
      rw [List.append_assoc, members?_longName h.bytes.nul hpath,
        members?_file hname hcontents hlong]
      rfl

/-- The entries of all files are read as the files, in their order. -/
theorem members?_entries {files : List (String × Bytes)} (hnames : ∀ file ∈ files, IsPlain file.1)
    (hsizes : ∀ file ∈ files, (encode file.1).length < maxU64 ∧ file.2.length ≤ maxU64) :
    ∃ entries, (files.mapM fun (path, contents) => fileEntries path contents) = .ok entries ∧
      blockSize ∣ entries.flatten.length ∧
      members? none (entries.flatten ++ ending) = some (files.map memberOf) := by
  induction files with
  | nil => exact ⟨[], rfl, Nat.dvd_zero _, members?_ending⟩
  | cons file files ih =>
    obtain ⟨path, contents⟩ := file
    obtain ⟨entries, hentries, hblocks, hread⟩ :=
      ih (fun other hother => hnames other (List.mem_cons_of_mem _ hother))
        fun other hother => hsizes other (List.mem_cons_of_mem _ hother)
    obtain ⟨hpath, hcontents⟩ := hsizes _ List.mem_cons_self
    obtain ⟨first, hfirst, hfirstBlocks, hfirstRead⟩ :=
      members?_fileEntries (hnames _ List.mem_cons_self) hpath hcontents
    refine ⟨first :: entries, ?_, ?_, ?_⟩
    · rw [List.mapM_cons]
      simp only [hfirst, hentries]
      rfl
    · rw [List.flatten_cons, List.length_append]
      exact Nat.dvd_add hfirstBlocks hblocks
    · rw [List.flatten_cons, List.append_assoc, hfirstRead, hread]
      rfl

/-- An archive of files with plain paths is made, it fills whole blocks, and it unpacks to just
these files, in their order: under their names, with their contents, and with the mode of files that
only their owner may read and write.  A size is written with eight bytes, which is enough for the
length of any text or contents in memory. -/
theorem unpack_ofFiles (files : Dictionary Bytes)
    (hnames : ∀ file ∈ files.entries, IsPlain file.1)
    (hsizes : ∀ file ∈ files.entries,
      (encode file.1).length < maxU64 ∧ file.2.length ≤ maxU64) :
    ∃ archive, ofFiles files = .ok archive ∧ blockSize ∣ archive.length ∧
      members? none archive = some (files.entries.map memberOf) := by
  obtain ⟨entries, hentries, hblocks, hread⟩ := members?_entries hnames hsizes
  refine ⟨entries.flatten ++ ending, ?_, ?_, hread⟩
  · unfold ofFiles
    rw [hentries]
    rfl
  · rw [List.length_append, ending, List.length_replicate]
    exact Nat.dvd_add hblocks (Nat.dvd_mul_left blockSize 2)

/-- Two files, one of them with a name that is too long for a header. -/
def sampleFiles : Dictionary Bytes where
  entries := [("passphrase", ascii "secret"), (String.ofList (List.replicate 120 'x'), [])]
  ordered := List.pairwise_pair.2 (by decide +kernel)

theorem unpack_sampleFiles :
    ∃ archive, ofFiles sampleFiles = .ok archive ∧ blockSize ∣ archive.length ∧
      members? none archive = some (sampleFiles.entries.map memberOf) := by
  have hlength : (encode (String.ofList (List.replicate 120 'x'))).length = 120 := by
    rw [Utf8.encode_eq, String.toList_ofList, Utf8.encodeChars, List.length_flatMap,
      List.map_replicate, List.sum_replicate_nat]
    decide
  have hparts : Text.splitOn '/' (List.replicate 120 'x') = [List.replicate 120 'x'] :=
    Text.splitOn_of_notMem (by simp)
  have hshort : IsPlain "passphrase" := ⟨by decide, by decide⟩
  have hlong : IsPlain (String.ofList (List.replicate 120 'x')) := by
    refine ⟨by simp, ?_⟩
    rw [String.toList_ofList, hparts]
    decide
  refine unpack_ofFiles sampleFiles ?_ ?_
  · intro file hfile
    rcases List.mem_cons.1 hfile with rfl | hfile
    · exact hshort
    · rw [List.mem_singleton.1 hfile]
      exact hlong
  · intro file hfile
    rcases List.mem_cons.1 hfile with rfl | hfile
    · rw [← ascii, length_ascii, length_ascii]
      decide
    · rw [List.mem_singleton.1 hfile, hlength]
      decide

end Caretaker.Engine.Archive
