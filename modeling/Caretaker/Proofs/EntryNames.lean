import Mathlib.Data.List.Basic
import Caretaker.Engine.Archive
import Caretaker.Proofs.Bytes
import Caretaker.Text.Split

/-!
# The names of entries

A path of named parts is the name of its entry as it stands, if a header has room for it.  If not,
the header holds what the start of the path gives; the cut may leave a slash, a dot or the directory
above at its end, and all of these can be put there.

Main definitions:

- `IsPlain`: a path whose parts are names.
- `Writable`: parts that can be put into a header one after another.

Main statements:

- `pieces_encodeChars`: the pieces of a path are those of its text.
- `headerName_cut`: the start of a long path can be put into a header.
- `fileEntries_of_le`, `fileEntries_of_lt`: the entries of a file with a plain path.
-/

namespace Caretaker.Engine.Archive

open String (utf8EncodeChar)
open Utf8 (encode encodeChars)

/-! ## The pieces of a path -/

theorem pieces_ne_nil (path : Bytes) : pieces path ≠ [] := by
  induction path with
  | nil => simp [pieces]
  | cons b path ih =>
    rw [pieces]
    split
    · simp
    · split <;> simp

theorem pieces_cons_slash (path : Bytes) : pieces (slash :: path) = [] :: pieces path := by
  simp [pieces]

theorem pieces_cons_of_ne {b : UInt8} {path piece : Bytes} {rest : List Bytes} (hb : b ≠ slash)
    (h : pieces path = piece :: rest) : pieces (b :: path) = (b :: piece) :: rest := by
  simp [pieces, hb, h]

/-- Bytes without a slash belong to the first piece. -/
theorem pieces_append_of_notMem {front back piece : Bytes} {rest : List Bytes}
    (hfront : slash ∉ front) (h : pieces back = piece :: rest) :
    pieces (front ++ back) = (front ++ piece) :: rest := by
  induction front with
  | nil => exact h
  | cons b front ih =>
    have hb : b ≠ slash := fun heq => hfront (heq ▸ List.mem_cons_self)
    exact pieces_cons_of_ne hb (ih fun hmem => hfront (List.mem_cons_of_mem _ hmem))

/-- Pieces on both sides of a slash. -/
theorem pieces_append_slash (front back : Bytes) :
    pieces (front ++ slash :: back) = pieces front ++ pieces back := by
  induction front with
  | nil => exact pieces_cons_slash back
  | cons b front ih =>
    by_cases hb : b = slash
    · simp [hb, pieces_cons_slash, ih]
    · obtain ⟨piece, rest, hfront⟩ := List.exists_cons_of_ne_nil (pieces_ne_nil front)
      rw [pieces_cons_of_ne hb hfront]
      exact pieces_cons_of_ne hb (ih.trans (by rw [hfront]; rfl))

/-- A byte of ASCII is that of one character only. -/
theorem eq_of_mem_utf8EncodeChar {c c' : Char} (hc' : c'.toNat < 0x80)
    (h : UInt8.ofNat c'.toNat ∈ utf8EncodeChar c) : c = c' := by
  have hbyte : (UInt8.ofNat c'.toNat).toNat = c'.toNat :=
    UInt8.toNat_ofNat_of_lt' (Nat.lt_trans hc' (by decide))
  have hcode := (Utf8.encodes_utf8EncodeChar c).eq_of_ascii h (by omega)
  exact Char.toNat_inj.1 (hcode.trans hbyte)

/-- The pieces of a path are those of its text. -/
theorem pieces_encodeChars (text : List Char) :
    pieces (encodeChars text) = (Text.splitOn '/' text).map encodeChars := by
  induction text with
  | nil => rfl
  | cons c text ih =>
    obtain ⟨part, parts, hparts⟩ := List.exists_cons_of_ne_nil (Text.splitOn_ne_nil '/' text)
    rw [hparts] at ih
    by_cases hc : c = '/'
    · have hslash : utf8EncodeChar '/' = [slash] := by decide
      simp [hc, hslash, Text.splitOn, hparts, pieces_cons_slash, ih]
    · have hnot : slash ∉ utf8EncodeChar c := fun hmem =>
        hc (eq_of_mem_utf8EncodeChar (by decide) hmem)
      simp [Text.splitOn, hc, hparts, pieces_append_of_notMem hnot ih]

/-- A slash, if one is needed. -/
def lead (needsSlash : Bool) : Bytes := if needsSlash then [slash] else []

/-- Pieces after each other with slashes between them, and one before them if `needsSlash`. -/
def joined : (needsSlash : Bool) → List Bytes → Bytes
  | _, [] => []
  | needsSlash, piece :: rest => lead needsSlash ++ piece ++ joined true rest

@[simp] theorem joined_nil (needsSlash : Bool) : joined needsSlash [] = [] := by
  cases needsSlash <;> rfl

theorem joined_append (needsSlash : Bool) (front back : List Bytes) :
    joined needsSlash (front ++ back) =
      joined needsSlash front ++ joined (needsSlash || !front.isEmpty) back := by
  induction front generalizing needsSlash with
  | nil => simp
  | cons piece front ih => simp [joined, ih]

/-- The pieces of a path make it up. -/
theorem joined_pieces (path : Bytes) : joined false (pieces path) = path := by
  induction path with
  | nil => rfl
  | cons b path ih =>
    obtain ⟨piece, rest, hpath⟩ := List.exists_cons_of_ne_nil (pieces_ne_nil path)
    rw [hpath] at ih
    by_cases hb : b = slash
    · rw [hb, pieces_cons_slash, hpath]
      simpa [joined, lead] using ih
    · rw [pieces_cons_of_ne hb hpath]
      simpa [joined, lead] using ih

theorem mem_of_mem_pieces {b : UInt8} {path piece : Bytes} (hpiece : piece ∈ pieces path)
    (hb : b ∈ piece) : b ∈ path := by
  obtain ⟨front, back, hpath⟩ := List.append_of_mem hpiece
  rw [← joined_pieces path, hpath, joined_append, joined]
  simp [hb]

/-- All pieces of the start of a path but the last one are pieces of the path. -/
theorem dropLast_pieces_prefix (front back : Bytes) :
    (pieces front).dropLast <+: pieces (front ++ back) := by
  induction front with
  | nil => exact List.nil_prefix
  | cons b front ih =>
    obtain ⟨piece, rest, hfront⟩ := List.exists_cons_of_ne_nil (pieces_ne_nil front)
    by_cases hb : b = slash
    · rw [List.cons_append, hb, pieces_cons_slash, pieces_cons_slash,
        List.dropLast_cons_of_ne_nil (pieces_ne_nil front)]
      exact (List.prefix_cons_inj []).2 ih
    · rw [hfront] at ih
      rw [List.cons_append, pieces_cons_of_ne hb hfront]
      cases rest with
      | nil => exact List.nil_prefix
      | cons piece' rest =>
        obtain ⟨more, hmore⟩ := ih
        rw [pieces_cons_of_ne hb hmore.symm]
        exact (List.prefix_cons_inj (b :: piece)).2 (List.prefix_append _ more)

/-! ## Plain paths -/

/-- A path whose parts are names: there are no empty parts, and none is a dot or the directory
above. -/
structure IsPlain (path : String) : Prop where
  nul : '\x00' ∉ path.toList
  parts : ∀ part ∈ Text.splitOn '/' path.toList, part ≠ [] ∧ part ≠ ['.'] ∧ part ≠ ['.', '.']

/-- The bytes of a name. -/
def IsName (piece : Bytes) : Prop := piece ≠ [] ∧ piece ≠ ascii "." ∧ piece ≠ ascii ".."

/-- The bytes of a plain path. -/
structure IsPlainBytes (path : Bytes) : Prop where
  nul : 0 ∉ path
  names : ∀ piece ∈ pieces path, IsName piece

theorem IsPlain.bytes {path : String} (h : IsPlain path) : IsPlainBytes (encode path) := by
  refine ⟨fun hzero => ?_, fun piece hpiece => ?_⟩
  · rw [Utf8.encode_eq] at hzero
    obtain ⟨c, hc, hzero⟩ := List.mem_flatMap.1 hzero
    have hnul : c = '\x00' := eq_of_mem_utf8EncodeChar (by decide) hzero
    exact h.nul (hnul ▸ hc)
  · rw [Utf8.encode_eq, pieces_encodeChars] at hpiece
    obtain ⟨part, hpart, rfl⟩ := List.mem_map.1 hpiece
    obtain ⟨hempty, hdot, habove⟩ := h.parts part hpart
    rw [IsName, ascii, ascii, Utf8.encode_eq, Utf8.encode_eq]
    exact ⟨fun heq => hempty (Utf8.encodeChars_injective heq),
      fun heq => hdot (Utf8.encodeChars_injective heq),
      fun heq => habove (Utf8.encodeChars_injective heq)⟩

/-! ## Parts in a header -/

/-- The bytes that are put for a part of a path. -/
def Component.bytes : Component → Bytes
  | root => []
  | here => ascii "."
  | above => ascii ".."
  | named name => name

/-- Parts that can be put into a header: names, and the directory above at the end of a path that
was cut. -/
inductive Writable (isCut : Bool) : List Component → Prop where
  | nil : Writable isCut []
  | above (h : isCut = true) : Writable isCut [.above]
  | named {name : Bytes} {parts : List Component} (hname : 0 ∉ name)
      (hparts : Writable isCut parts) : Writable isCut (.named name :: parts)

theorem put_of_le {written bytes : Bytes} (hfits : written.length + bytes.length ≤ nameSize)
    (hnul : 0 ∉ bytes) : put written bytes = .ok (written ++ bytes) := by
  rw [put, if_neg (by omega), if_neg (by simpa using hnul)]

theorem put_of_lt {written bytes : Bytes} (hlong : nameSize < written.length + bytes.length) :
    put written bytes = .error (.tooLong, written) := if_pos hlong

/-- The bytes of a part put after others, a slash between them if one is needed. -/
def putPart (needsSlash : Bool) (written bytes : Bytes) : Except (PathFault × Bytes) Bytes :=
  (if needsSlash then put written [slash] else .ok written) >>= (put · bytes)

section putPart

variable {written bytes : Bytes} {needsSlash : Bool}

theorem putPart_of_le
    (hfits : written.length + (lead needsSlash).length + bytes.length ≤ nameSize)
    (hnul : 0 ∉ bytes) :
    putPart needsSlash written bytes = .ok (written ++ lead needsSlash ++ bytes) := by
  rcases needsSlash with _ | _
  · have hput : put written bytes = .ok (written ++ bytes) := put_of_le hfits hnul
    rw [lead, if_neg Bool.false_ne_true, List.append_nil]
    exact hput
  · have hslash : put written [slash] = .ok (written ++ [slash]) :=
      put_of_le (by simp [lead] at hfits ⊢; omega) (by decide)
    have hput : put (written ++ [slash]) bytes = .ok (written ++ [slash] ++ bytes) :=
      put_of_le (by simpa [lead] using hfits) hnul
    simp only [putPart, if_true, hslash]
    exact hput

theorem putPart_of_lt
    (hlong : nameSize < written.length + (lead needsSlash).length + bytes.length) :
    ∃ fault, putPart needsSlash written bytes = .error fault := by
  rcases needsSlash with _ | _
  · have hput : put written bytes = .error (.tooLong, written) := put_of_lt hlong
    exact ⟨_, hput⟩
  · by_cases hroom : nameSize < written.length + 1
    · have hslash : put written [slash] = .error (.tooLong, written) := put_of_lt hroom
      exact ⟨(.tooLong, written), by simp only [putPart, if_true, hslash]; rfl⟩
    · have hslash : put written [slash] = .ok (written ++ [slash]) :=
        put_of_le (Nat.not_lt.1 hroom) (by decide)
      have hput : put (written ++ [slash]) bytes = .error (.tooLong, written ++ [slash]) :=
        put_of_lt (by simpa [lead] using hlong)
      exact ⟨(.tooLong, written ++ [slash]), by simp only [putPart, if_true, hslash]; exact hput⟩

end putPart

section putComponents

variable {isCut : Bool} (isOnly : Bool) {written : Bytes} {needsSlash : Bool} {part : Component}
  {parts : List Component}

theorem Writable.nul (h : Writable isCut (part :: parts)) : 0 ∉ part.bytes := by
  rcases h with _ | _ | hname
  · rw [Component.bytes, ascii, Utf8.encode_eq]
    decide
  · exact hname

theorem Writable.tail (h : Writable isCut (part :: parts)) : Writable isCut parts := by
  rcases h with _ | _ | ⟨_, hparts⟩
  · exact .nil
  · exact hparts

/-- The other parts go behind the first one. -/
theorem putComponents_cons (h : Writable isCut (part :: parts)) :
    putComponents isCut isOnly written needsSlash (part :: parts) =
      putPart needsSlash written part.bytes >>= (putComponents isCut isOnly · true parts) := by
  rcases h with _ | hcut | _
  · subst hcut
    rcases needsSlash with _ | _
    · rfl
    · exact (bind_assoc (put written [slash]) (put · (ascii "..")) _).symm
  · rcases needsSlash with _ | _
    · rfl
    · exact (bind_assoc (put written [slash]) (put · _) _).symm

/-- Parts that fit are put. -/
theorem putComponents_of_le (h : Writable isCut parts)
    (hfits : written.length + (joined needsSlash (parts.map Component.bytes)).length ≤ nameSize) :
    putComponents isCut isOnly written needsSlash parts =
      .ok (written ++ joined needsSlash (parts.map Component.bytes)) := by
  induction parts generalizing written needsSlash with
  | nil => simp [putComponents]
  | cons part parts ih =>
    simp only [List.map_cons, joined, List.length_append] at hfits ⊢
    have hpart : putPart needsSlash written part.bytes =
        .ok (written ++ lead needsSlash ++ part.bytes) := putPart_of_le (by omega) h.nul
    have hrest : (written ++ lead needsSlash ++ part.bytes).length +
        (joined true (parts.map Component.bytes)).length ≤ nameSize := by
      simp only [List.length_append]
      omega
    rw [putComponents_cons isOnly h, hpart]
    refine (ih h.tail hrest).trans ?_
    simp only [List.append_assoc]

/-- Parts that do not fit are not put. -/
theorem putComponents_of_lt (h : Writable isCut parts) (hwritten : written.length ≤ nameSize)
    (hlong : nameSize < written.length + (joined needsSlash (parts.map Component.bytes)).length) :
    ∃ fault, putComponents isCut isOnly written needsSlash parts = .error fault := by
  induction parts generalizing written needsSlash with
  | nil =>
    simp only [List.map_nil, joined_nil, List.length_nil] at hlong
    omega
  | cons part parts ih =>
    simp only [List.map_cons, joined, List.length_append] at hlong
    rw [putComponents_cons isOnly h]
    by_cases hroom : nameSize < written.length + (lead needsSlash).length + part.bytes.length
    · obtain ⟨fault, hpart⟩ := putPart_of_lt hroom
      exact ⟨fault, by rw [hpart]; rfl⟩
    · have hpart : putPart needsSlash written part.bytes =
          .ok (written ++ lead needsSlash ++ part.bytes) := putPart_of_le (by omega) h.nul
      have hwritten' : (written ++ lead needsSlash ++ part.bytes).length ≤ nameSize := by
        simp only [List.length_append]
        omega
      have hrest : nameSize < (written ++ lead needsSlash ++ part.bytes).length +
          (joined true (parts.map Component.bytes)).length := by
        simp only [List.length_append]
        omega
      rw [hpart]
      exact ih h.tail hwritten' hrest

end putComponents

/-! ## The name in a header -/

theorem Writable.append_names {isCut : Bool} {names : List Bytes} {parts : List Component}
    (hnames : ∀ name ∈ names, 0 ∉ name) (h : Writable isCut parts) :
    Writable isCut (names.map .named ++ parts) := by
  induction names with
  | nil => exact h
  | cons name names ih =>
    exact .named (hnames name List.mem_cons_self)
      (ih fun other hother => hnames other (List.mem_cons_of_mem _ hother))

theorem map_bytes_names (names : List Bytes) :
    (names.map Component.named).map Component.bytes = names := by
  simp [Function.comp_def, Component.bytes]

theorem component?_of_isName {isFirst : Bool} {piece : Bytes} (h : IsName piece) :
    component? isFirst piece = some (.named piece) := by
  obtain ⟨hempty, hdot, habove⟩ := h
  simp [component?, hempty, hdot, habove]

/-- A part inside of a path is put as it stands; in a path that was cut that may be the directory
above. -/
theorem component?_inner {piece : Bytes} {part : Component}
    (h : component? false piece = some part) :
    piece ≠ [] ∧ part.bytes = piece ∧ (0 ∉ piece → Writable true [part]) := by
  unfold component? at h
  split at h
  · cases h
  next hempty =>
  split at h
  · cases h
  split at h
  next habove =>
    cases h
    exact ⟨hempty, habove.symm, fun _ => .above rfl⟩
  · cases h
    exact ⟨hempty, rfl, fun hnul => .named hnul .nil⟩

section names

variable {path last : Bytes} {names : List Bytes}

/-- The parts of a path whose pieces are names but for the last one. -/
theorem components_of_names (h : pieces path = names ++ [last])
    (hnames : ∀ piece ∈ names, IsName piece) (hlast : names = [] → last ≠ []) :
    components path = names.map .named ++ (component? names.isEmpty last).toList := by
  -- the path does not start with a slash, since its first piece is not empty
  have hhead : path.head? ≠ some slash := by
    intro hhead
    obtain ⟨rest, rfl⟩ := List.head?_eq_some_iff.1 hhead
    rw [pieces_cons_slash] at h
    rcases names with _ | ⟨first, names⟩
    · exact hlast rfl (List.cons.inj h).1.symm
    · exact (hnames first List.mem_cons_self).1 (List.cons.inj h).1.symm
  unfold components
  rcases names with _ | ⟨first, names⟩
  · simp [h, hhead]
  · have hfirst : component? true first = some (.named first) :=
      component?_of_isName (hnames first List.mem_cons_self)
    have hrest : names.filterMap (component? false) = names.map .named := by
      refine List.filterMap_eq_map_iff_forall_eq_some.2 fun piece hpiece => ?_
      exact component?_of_isName (hnames piece (List.mem_cons_of_mem _ hpiece))
    have hend : [last].filterMap (component? false) = (component? false last).toList := by
      rcases hpart : component? false last with _ | part <;> simp [hpart]
    simp [h, hhead, hfirst, hrest, hend]

/-- The last piece does not count as the first one if there are others. -/
theorem components_of_inner (h : pieces path = names ++ [last])
    (hnames : ∀ piece ∈ names, IsName piece) (hsome : names ≠ []) :
    components path = names.map .named ++ (component? false last).toList := by
  have hinner : names.isEmpty = false := by simpa using hsome
  rw [components_of_names h hnames fun hnone => absurd hnone hsome, hinner]

theorem nul_of_mem_names (h : pieces path = names ++ [last]) (hnul : 0 ∉ path) :
    ∀ name ∈ names, 0 ∉ name := by
  intro name hname hzero
  exact hnul (mem_of_mem_pieces (h ▸ List.mem_append_left _ hname) hzero)

/-- A path ends in a slash only if its last piece is empty. -/
theorem getLast?_ne_slash (h : pieces path = names ++ [last]) (hlast : last ≠ []) :
    path.getLast? ≠ some slash := by
  intro hslash
  obtain ⟨front, rfl⟩ := List.getLast?_eq_some_iff.1 hslash
  have hpieces : pieces front ++ [[]] = names ++ [last] :=
    (pieces_append_slash front []).symm.trans h
  exact hlast (List.cons.inj (List.append_inj_right' hpieces rfl)).1.symm

/-- Parts that fit are the name, with the slash at the end of the path. -/
theorem headerName_of_fits {isCut : Bool} (h : Writable isCut (components path))
    (hparts : components path ≠ [])
    (hfits : (joined false ((components path).map Component.bytes)).length ≤ nameSize) :
    headerName isCut path =
      if path.getLast? = some slash then
        put (joined false ((components path).map Component.bytes)) [slash]
      else .ok (joined false ((components path).map Component.bytes)) := by
  have hput : putComponents isCut ((components path).length == 1) [] false (components path) =
      .ok (joined false ((components path).map Component.bytes)) :=
    putComponents_of_le _ h (by simpa using hfits)
  have hempty : (components path).isEmpty = false := by simpa using hparts
  unfold headerName
  simp only [hput, hempty]
  rfl

/-- Parts that do not fit are not put. -/
theorem headerName_of_tooLong {isCut : Bool} (h : Writable isCut (components path))
    (hlong : nameSize < (joined false ((components path).map Component.bytes)).length) :
    ∃ fault, headerName isCut path = .error fault := by
  obtain ⟨fault, hput⟩ : ∃ fault, putComponents isCut ((components path).length == 1) [] false
      (components path) = .error fault :=
    putComponents_of_lt _ h (Nat.zero_le _) (by simpa using hlong)
  exact ⟨fault, by unfold headerName; simp only [hput]; rfl⟩

end names

section IsPlainBytes

variable {path : Bytes}

/-- The last piece of a plain path is a name as the others are. -/
theorem IsPlainBytes.exists_names (h : IsPlainBytes path) :
    ∃ names last, pieces path = names ++ [last] ∧ (∀ piece ∈ names, IsName piece) ∧
      IsName last := by
  have hsplit := List.dropLast_concat_getLast (pieces_ne_nil path)
  exact ⟨_, _, hsplit.symm, fun piece hpiece => h.names piece (List.dropLast_subset _ hpiece),
    h.names _ (List.getLast_mem _)⟩

theorem IsPlainBytes.components_eq (h : IsPlainBytes path) :
    components path = (pieces path).map .named := by
  obtain ⟨names, last, hpieces, hnames, hlast⟩ := h.exists_names
  rw [components_of_names hpieces hnames fun _ => hlast.1, component?_of_isName hlast, hpieces]
  simp

theorem IsPlainBytes.getLast?_ne_slash (h : IsPlainBytes path) : path.getLast? ≠ some slash := by
  obtain ⟨names, last, hpieces, _, hlast⟩ := h.exists_names
  exact Archive.getLast?_ne_slash hpieces hlast.1

theorem IsPlainBytes.writable (isCut : Bool) (h : IsPlainBytes path) :
    Writable isCut (components path) := by
  have hnul : ∀ piece ∈ pieces path, 0 ∉ piece := fun piece hpiece hzero =>
    h.nul (mem_of_mem_pieces hpiece hzero)
  simpa [h.components_eq] using Writable.append_names hnul .nil

theorem IsPlainBytes.joined_eq (h : IsPlainBytes path) :
    joined false ((components path).map Component.bytes) = path := by
  rw [h.components_eq, map_bytes_names, joined_pieces]

/-- A plain path that fits is the name of its entry. -/
theorem IsPlainBytes.headerName_of_le (isCut : Bool) (h : IsPlainBytes path)
    (hfits : path.length ≤ nameSize) : headerName isCut path = .ok path := by
  have hparts : components path ≠ [] := by
    simpa [h.components_eq] using pieces_ne_nil path
  rw [headerName_of_fits (h.writable isCut) hparts (by rwa [h.joined_eq]), h.joined_eq,
    if_neg h.getLast?_ne_slash]

/-- A plain path that does not fit cannot be the name of its entry. -/
theorem IsPlainBytes.headerName_of_lt (h : IsPlainBytes path) (hlong : nameSize < path.length) :
    ∃ fault, headerName false path = .error fault :=
  headerName_of_tooLong (h.writable false) (by rwa [h.joined_eq])

end IsPlainBytes

/-! ## The start of a long path -/

section cut

variable {path cut last : Bytes} {names : List Bytes}

/-- A path that was cut inside of its last part is put as it stands. -/
theorem headerName_of_part {part : Component} (hpieces : pieces cut = names ++ [last])
    (hnames : ∀ piece ∈ names, IsName piece) (hsome : names ≠ []) (hnul : 0 ∉ cut)
    (hfits : cut.length ≤ nameSize) (hpart : component? false last = some part) :
    headerName true cut = .ok cut := by
  obtain ⟨hlast, hbytes, hwritable⟩ := component?_inner hpart
  have hparts : components cut = names.map .named ++ [part] := by
    rw [components_of_inner hpieces hnames hsome, hpart]
    rfl
  have hjoined : joined false ((components cut).map Component.bytes) = cut := by
    rw [hparts, List.map_append, map_bytes_names, List.map_singleton, hbytes, ← hpieces,
      joined_pieces]
  have hput : Writable true (components cut) := by
    rw [hparts]
    refine .append_names (nul_of_mem_names hpieces hnul) (hwritable fun hzero => ?_)
    exact hnul (mem_of_mem_pieces (hpieces ▸ List.mem_concat_self) hzero)
  rw [headerName_of_fits hput (by simp [hparts]) (by rwa [hjoined]), hjoined,
    if_neg (getLast?_ne_slash hpieces hlast)]

/-- A path that was cut behind a slash, or behind a slash and a dot, keeps the slash at most. -/
theorem headerName_of_dropped (hpieces : pieces cut = names ++ [last])
    (hnames : ∀ piece ∈ names, IsName piece) (hsome : names ≠ []) (hnul : 0 ∉ cut)
    (hfits : cut.length ≤ nameSize) (hpart : component? false last = none) :
    ∃ name, headerName true cut = .ok name ∧ name.length ≤ nameSize := by
  have hparts : components cut = names.map .named := by
    rw [components_of_inner hpieces hnames hsome, hpart]
    exact List.append_nil _
  have hjoined : joined false ((components cut).map Component.bytes) = joined false names := by
    rw [hparts, map_bytes_names]
  -- there is room for a slash, since the path has one before its last piece
  have hroom : (joined false names).length + 1 ≤ nameSize := by
    have hinner : names.isEmpty = false := by simpa using hsome
    have hwhole : cut.length = (joined false names).length + 1 + last.length := by
      rw [← joined_pieces cut, hpieces, joined_append, hinner]
      simp only [Bool.not_false, Bool.or_true, joined, lead, if_true, List.length_append,
        List.length_singleton, List.length_nil]
      omega
    omega
  have hput : Writable true (components cut) := by
    rw [hparts, ← List.append_nil (names.map _)]
    exact .append_names (nul_of_mem_names hpieces hnul) .nil
  rw [headerName_of_fits hput (by simp [hparts, hsome]) (by rw [hjoined]; omega), hjoined]
  split
  · have hslash : put (joined false names) [slash] = .ok (joined false names ++ [slash]) :=
      put_of_le hroom (by decide)
    exact ⟨_, hslash, by simpa using hroom⟩
  · exact ⟨_, rfl, by omega⟩

theorem length_ascii (text : String) : (ascii text).length = text.utf8ByteSize := by
  rw [ascii, encode, Utf8.toList_eq]
  rfl

theorem isName_of_lt {piece : Bytes} (h : 2 < piece.length) : IsName piece := by
  have hne (other : Bytes) (hother : other.length ≤ 2) : piece ≠ other := by
    rintro rfl
    omega
  refine ⟨hne [] (by decide), hne _ ?_, hne _ ?_⟩
  · rw [length_ascii]
    decide
  · rw [length_ascii]
    decide

/-- What is cut off a plain path can be put into a header. -/
theorem IsPlainBytes.headerName_cut (h : IsPlainBytes path) (hcut : cut <+: path)
    (hlong : 2 < cut.length) (hfits : cut.length ≤ nameSize) :
    ∃ name, headerName true cut = .ok name ∧ name.length ≤ nameSize := by
  have hnul : 0 ∉ cut := fun hzero => h.nul (hcut.subset hzero)
  obtain ⟨rest, hrest⟩ := hcut
  obtain ⟨names, last, hpieces⟩ : ∃ names last, pieces cut = names ++ [last] :=
    ⟨_, _, (List.dropLast_concat_getLast (pieces_ne_nil cut)).symm⟩
  have hnames : ∀ piece ∈ names, IsName piece := by
    have hnamesStart := dropLast_pieces_prefix cut rest
    rw [hpieces, List.dropLast_concat, hrest] at hnamesStart
    exact fun piece hpiece => h.names piece (hnamesStart.subset hpiece)
  by_cases hone : names = []
  · -- a part that is that long cannot be cut to a dot or the directory above
    have hwhole : last = cut := by simpa [hpieces, hone, joined, lead] using joined_pieces cut
    have hplain : IsPlainBytes cut := by
      refine ⟨hnul, fun piece hpiece => ?_⟩
      rw [hpieces, hone, hwhole, List.nil_append, List.mem_singleton] at hpiece
      exact hpiece ▸ isName_of_lt hlong
    exact ⟨cut, hplain.headerName_of_le true hfits, hfits⟩
  · rcases hpart : component? false last with _ | part
    · exact headerName_of_dropped hpieces hnames hone hnul hfits hpart
    · exact ⟨cut, headerName_of_part hpieces hnames hone hnul hfits hpart, hfits⟩

end cut

/-! ## The entries of a file -/

section fileEntries

variable {path : String} (contents : Bytes)

/-- A plain path that fits is the name of the only entry. -/
theorem fileEntries_of_le (h : IsPlain path) (hfits : (encode path).length ≤ nameSize) :
    fileEntries path contents = .ok (entry (encode path) .file contents) := by
  have hname : headerName false (encode path) = .ok (encode path) :=
    h.bytes.headerName_of_le false hfits
  simp only [fileEntries, hname]

/-- A longer plain path travels in an entry of its own. -/
theorem fileEntries_of_lt (h : IsPlain path) (hlong : nameSize < (encode path).length) :
    ∃ name, name.length ≤ nameSize ∧
      fileEntries path contents = .ok (longName (encode path) ++ entry name .file contents) := by
  obtain ⟨fault, hfault⟩ := h.bytes.headerName_of_lt hlong
  let cut := Utf8.wholePart ((encode path).take nameSize)
  have hstart : cut <+: encode path :=
    (Utf8.wholePart_prefix _).trans (List.take_prefix _ _)
  have hfits : cut.length ≤ nameSize :=
    Nat.le_trans (Utf8.wholePart_prefix _).length_le (List.length_take_le _ _)
  have hrest : nameSize ≤ cut.length + 3 := by
    have hwhole := Utf8.le_length_wholePart path.toList nameSize
    rwa [← Utf8.encode_eq, Nat.min_eq_left (Nat.le_of_lt hlong)] at hwhole
  have hcut : 2 < cut.length := by
    unfold nameSize at hrest
    omega
  obtain ⟨name, hname, hsize⟩ := h.bytes.headerName_cut hstart hcut hfits
  refine ⟨name, hsize, ?_⟩
  have hnot : ¬ (encode path).length < nameSize := by omega
  simp only [fileEntries, hfault, if_neg hnot]
  rw [hname]

end fileEntries

end Caretaker.Engine.Archive
