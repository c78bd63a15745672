import Caretaker.Net.SocketAddress
import Caretaker.Proofs.Numerals

/-!
# Texts of addresses

A socket address is an IP address, a colon and a port.  An IPv4 address has only its printed form.
An IPv6 address stands in brackets, perhaps with a scope; it has pieces with colons between them,
one per group but for a last piece in dotted form, which makes two groups.  A double colon stands
once for as many zero groups as are missing, one at least.

Main definitions:

- `ArePieces`: the pieces of an IPv6 address and their groups.
- `IsIpv6`, `IsSocketAddress`: the texts of an address.

Main statements:

- `SocketAddress.parse?_eq_some_iff`: these texts are read as these addresses, and no other text is.
-/

namespace Caretaker.Net

open Text

/-! ## Texts -/

/-- A group in hexadecimal. -/
structure IsGroup (text : List Char) (group : UInt16) : Prop where
  length_le : text.length ≤ 4
  spells : Spells 16 text group.toNat

/-- The pieces between the colons and their groups, and whether the last two groups are in dotted
form. -/
inductive ArePieces : List (List Char) → List UInt16 → (dotted : Bool) → Prop where
  | nil : ArePieces [] [] false
  | dotted (ip : Ipv4) : ArePieces [ip.render.toList] ip.groups true
  | group {piece : List Char} {group : UInt16} {pieces : List (List Char)} {groups : List UInt16}
      {dotted : Bool} (hpiece : IsGroup piece group) (hpieces : ArePieces pieces groups dotted) :
      ArePieces (piece :: pieces) (group :: groups) dotted

/-- The texts of an IPv6 address. -/
inductive IsIpv6 : List Char → Ipv6 → Prop where
  /-- All groups are written. -/
  | full {pieces : List (List Char)} {dotted : Bool} {ip : Ipv6}
      (h : ArePieces pieces ip.groups.toList dotted) : IsIpv6 ([':'].intercalate pieces) ip
  /-- The double colon stands for the zeros between the front and the back. -/
  | short {front back : List (List Char)} {frontGroups backGroups : List UInt16} {dotted : Bool}
      {ip : Ipv6} (hfront : ArePieces front frontGroups false)
      (hback : ArePieces back backGroups dotted)
      (hzeros : frontGroups.length + backGroups.length < 8)
      (hip : ip.groups.toList = frontGroups ++
        List.replicate (8 - frontGroups.length - backGroups.length) 0 ++ backGroups) :
      IsIpv6 ([':'].intercalate front ++ ':' :: ':' :: [':'].intercalate back) ip

/-- The texts of a socket address. -/
inductive IsSocketAddress : List Char → SocketAddress → Prop where
  | v4 {port : List Char} {p : UInt16} (ip : Ipv4) (hport : Spells 10 port p.toNat) :
      IsSocketAddress (ip.render.toList ++ ':' :: port) (.v4 ip p)
  | v6 {text port : List Char} {ip : Ipv6} {p : UInt16} (hip : IsIpv6 text ip)
      (hport : Spells 10 port p.toNat) :
      IsSocketAddress ('[' :: (text ++ ']' :: ':' :: port)) (.v6 ip 0 p)
  | v6Scoped {text scope port : List Char} {ip : Ipv6} {s : UInt32} {p : UInt16}
      (hip : IsIpv6 text ip) (hscope : Spells 10 scope s.toNat) (hport : Spells 10 port p.toNat) :
      IsSocketAddress ('[' :: (text ++ '%' :: (scope ++ ']' :: ':' :: port))) (.v6 ip s p)

variable {radix limit n : Nat} {text digits rest : List Char} {values : List Nat}

/-! ## Numbers -/

theorem ofDigits_eq (values : List Nat) : ofDigits radix values = placeValue radix values := by
  induction values using List.reverseRecOn with
  | nil => rfl
  | append_singleton values d ih =>
    rw [placeValue_concat, ← ih]
    simp [ofDigits]

section digits

variable (hradix : radix ≤ 16)
include hradix

theorem takeDigits_append (h : IsDigits radix digits values) (hend : DigitsEnd radix rest) :
    takeDigits radix (digits ++ rest) = (values, rest) := by
  induction h with
  | nil =>
    cases rest with
    | nil => rfl
    | cons c rest =>
      have hc := (digitValue?_eq_none_iff hradix).2 (hend c rfl)
      simp [takeDigits, hc]
  | cons hc _ ih => simp [takeDigits, (digitValue?_eq_some_iff hradix).2 hc, ih]

theorem eq_append_of_takeDigits (h : takeDigits radix text = (values, rest)) :
    ∃ digits, text = digits ++ rest ∧ IsDigits radix digits values := by
  obtain ⟨digits, rest', values', rfl, hdigits, hend⟩ := exists_digits hradix text
  rw [takeDigits_append hradix hdigits hend] at h
  cases h
  exact ⟨digits, rfl, hdigits⟩

theorem takeNumber?_append (h : Spells radix digits n) (hle : n ≤ limit)
    (hend : DigitsEnd radix rest) : takeNumber? radix limit (digits ++ rest) = some (n, rest) := by
  obtain ⟨values, hne, hdigits, rfl⟩ := h
  rw [← ofDigits_eq] at hle ⊢
  simp [takeNumber?, takeDigits_append hradix hdigits hend, hle]

theorem eq_append_of_takeNumber? (h : takeNumber? radix limit text = some (n, rest)) :
    ∃ digits, text = digits ++ rest ∧ Spells radix digits n ∧ n ≤ limit := by
  unfold takeNumber? at h
  split at h
  · cases h
  · next values _ hne htake =>
    obtain ⟨digits, rfl, hdigits⟩ := eq_append_of_takeDigits hradix htake
    split at h
    · next hle =>
      cases h
      exact ⟨digits, rfl, ⟨values, hne, hdigits, ofDigits_eq values⟩, hle⟩
    · cases h

end digits

@[simp] theorem takeChar?_eq_some_iff {c : Char} :
    takeChar? c text = some rest ↔ text = c :: rest := by
  cases text with
  | nil => simp [takeChar?]
  | cons d text =>
    by_cases hd : d = c
    · simp [takeChar?, hd]
    · simp [takeChar?, hd]

theorem takeOctet?_append (b : UInt8) (hend : DigitsEnd 10 rest) :
    takeOctet? (Nat.toDigits 10 b.toNat ++ rest) = some (b, rest) := by
  obtain ⟨values, hne, hvalues, hzero, hb⟩ := exists_values (by decide : 1 < 10) b.toNat
  have htext := toDigits_placeValue (by decide) hvalues hne hzero
  have hlength := Nat.toDigits_length 10 b.toNat 3 (by decide) (by have := b.toNat_lt; omega)
  rw [hb] at htext
  rw [htext] at hlength ⊢
  have htake := takeDigits_append (by decide) (isDigits_ten_iff.2 ⟨hvalues, rfl⟩) hend
  have hof : ofDigits 10 values = b.toNat := (ofDigits_eq values).trans hb
  have hle : b.toNat ≤ 255 := by have := b.toNat_lt; omega
  cases values with
  | nil => exact absurd rfl hne
  | cons d values =>
    have hfront : ¬ (d = 0 ∧ values ≠ []) := by
      rintro ⟨rfl, hvalues'⟩
      exact hvalues' (List.cons.inj (hzero rfl)).2
    rw [List.length_map, List.length_cons] at hlength
    simp only [takeOctet?, htake, hof]
    rw [if_pos ⟨by omega, hfront, hle⟩, UInt8.ofNat_toNat]

theorem eq_append_of_takeOctet? {b : UInt8} (h : takeOctet? text = some (b, rest)) :
    text = Nat.toDigits 10 b.toNat ++ rest := by
  unfold takeOctet? at h
  split at h
  · cases h
  · next d values _ htake =>
    obtain ⟨digits, rfl, hdigits⟩ := eq_append_of_takeDigits (by decide) htake
    obtain ⟨hvalues, rfl⟩ := isDigits_ten_iff.1 hdigits
    split at h
    · next hoctet =>
      obtain ⟨-, hzero, hle⟩ := hoctet
      cases h
      have hnat : (UInt8.ofNat (ofDigits 10 (d :: values))).toNat = ofDigits 10 (d :: values) :=
        UInt8.toNat_ofNat_of_lt (Nat.lt_succ_of_le hle)
      have hlead : NoLeadingZero (d :: values) := by
        intro hd
        cases hd
        have hnil : values = [] := by simpa using hzero
        rw [hnil]
      rw [hnat, ofDigits_eq, toDigits_placeValue (by decide) hvalues (by simp) hlead]
    · cases h

/-! ## IPv4 -/

theorem Ipv4.toList_render (ip : Ipv4) : ip.render.toList =
    Nat.toDigits 10 ip.a.toNat ++ '.' :: (Nat.toDigits 10 ip.b.toNat ++
      '.' :: (Nat.toDigits 10 ip.c.toNat ++ '.' :: Nat.toDigits 10 ip.d.toNat)) := by
  have hdot : (toString ".").toList = ['.'] := rfl
  simp [Ipv4.render, hdot]

theorem Ipv4.take?_append (ip : Ipv4) (hend : DigitsEnd 10 rest) :
    Ipv4.take? (ip.render.toList ++ rest) = some (ip, rest) := by
  have hdot {rest} : DigitsEnd 10 ('.' :: rest) := digitsEnd_cons (by decide) (by decide)
  simp [Ipv4.take?, Ipv4.toList_render, takeOctet?_append _ hdot, takeOctet?_append _ hend,
    takeChar?]

theorem Ipv4.eq_append_of_take? {ip : Ipv4} (h : Ipv4.take? text = some (ip, rest)) :
    text = ip.render.toList ++ rest := by
  simp only [Ipv4.take?, Option.bind_eq_bind, Option.bind_eq_some_iff, Prod.exists,
    takeChar?_eq_some_iff, Option.pure_def, Option.some.injEq, Prod.mk.injEq] at h
  obtain ⟨a, _, ha, _, rfl, b, _, hb, _, rfl, c, _, hc, _, rfl, d, _, hd, rfl, rfl⟩ := h
  rw [eq_append_of_takeOctet? ha, eq_append_of_takeOctet? hb, eq_append_of_takeOctet? hc,
    eq_append_of_takeOctet? hd, Ipv4.toList_render]
  simp

/-! ## Groups -/

/-- What comes after the groups of an address: the double colon, its scope or its end. -/
inductive Closes : List Char → Prop where
  | colons (rest : List Char) : Closes (':' :: ':' :: rest)
  | scope (rest : List Char) : Closes ('%' :: rest)
  | bracket (rest : List Char) : Closes (']' :: rest)

/-- The pieces one after the other, with a colon before each but the first. -/
def joined (first : Bool) : List (List Char) → List Char
  | [] => []
  | piece :: pieces => (if first then [] else [':']) ++ (piece ++ joined false pieces)

theorem joined_true (pieces : List (List Char)) :
    joined true pieces = [':'].intercalate pieces := by
  have hbehind (piece : List Char) (pieces : List (List Char)) :
      [':'].intercalate (piece :: pieces) = piece ++ joined false pieces := by
    induction pieces generalizing piece with
    | nil => simp [joined, List.intercalate]
    | cons next pieces ih =>
      rw [joined, ← ih next]
      simp [List.intercalate]
  cases pieces with
  | nil => rfl
  | cons piece pieces => simp [joined, hbehind]

/-- Neither a digit nor a dot goes on behind a piece. -/
theorem Closes.joined_digitsEnd (hradix : radix ≤ 16) (h : Closes rest)
    (pieces : List (List Char)) : DigitsEnd radix (joined false pieces ++ rest) ∧
      ∀ text, joined false pieces ++ rest ≠ '.' :: text := by
  have hsixteen : ∀ c ∈ [':', '%', ']'], digitValue? radix c = none := by
    simp [digitValue?]
  cases pieces with
  | nil =>
    cases h with
    | colons | scope | bracket =>
      exact ⟨digitsEnd_cons hradix (hsixteen _ (by simp)), by simp [joined]⟩
  | cons piece pieces => exact ⟨digitsEnd_cons hradix (hsixteen ':' (by simp)), by simp [joined]⟩

theorem Closes.takeGroups_eq (h : Closes rest) (room : Nat) (first : Bool) :
    takeGroups room first rest = ([], false, rest) := by
  have hdigit : ∀ c ∈ [':', '%', ']'], digitValue? 10 c = none ∧ digitValue? 16 c = none := by
    simp [digitValue?]
  cases room with
  | zero => rfl
  | succ room =>
    cases h <;> cases first <;>
      simp [takeGroups, takeChar?, takeGroup?, Ipv4.take?, takeOctet?, takeDigits, hdigit]

theorem takeGroup?_append {piece : List Char} {group : UInt16} (h : IsGroup piece group)
    (hend : DigitsEnd 16 rest) : takeGroup? (piece ++ rest) = some (group, rest) := by
  obtain ⟨values, hne, hdigits, hgroup⟩ := h.spells
  have hlength := h.length_le
  rw [hdigits.length_eq] at hlength
  rw [← ofDigits_eq] at hgroup
  simp [takeGroup?, takeDigits_append (by decide) hdigits hend, hlength, ← hgroup]

theorem eq_append_of_takeGroup? {group : UInt16} (h : takeGroup? text = some (group, rest)) :
    ∃ piece, text = piece ++ rest ∧ IsGroup piece group := by
  unfold takeGroup? at h
  split at h
  · cases h
  · next values _ hne htake =>
    obtain ⟨digits, rfl, hdigits⟩ := eq_append_of_takeDigits (by decide) htake
    split at h
    · next hle =>
      cases h
      have hbound : ofDigits 16 values < UInt16.size := by
        rw [ofDigits_eq]
        exact (placeValue_lt hdigits (by decide)).trans_le (Nat.pow_le_pow_right (by decide) hle)
      refine ⟨digits, rfl, hdigits.length_eq ▸ hle, values, hne, hdigits, ?_⟩
      rw [UInt16.toNat_ofNat_of_lt' hbound, ofDigits_eq]
    · cases h

/-- A group is not taken for the start of an IPv4 address. -/
theorem IsGroup.take?_append {piece : List Char} {group : UInt16} (h : IsGroup piece group)
    (hend : DigitsEnd 16 rest) (hdot : ∀ text, rest ≠ '.' :: text) :
    Ipv4.take? (piece ++ rest) = none := by
  obtain ⟨values, -, hdigits, -⟩ := h.spells
  refine Option.eq_none_iff_forall_ne_some.2 fun ⟨ip, rest'⟩ htake => ?_
  -- the digits end at one place, which would have to be a dot
  obtain ⟨others, hothers⟩ := isDigits_toDigits (by decide : 10 ≤ 16) ip.a.toNat
  have hend' {rest} : DigitsEnd 16 ('.' :: rest) := digitsEnd_cons (by decide) (by decide)
  have htext := Ipv4.eq_append_of_take? htake
  rw [Ipv4.toList_render, List.append_assoc, List.cons_append] at htext
  have heq := takeDigits_append (by decide) hdigits hend
  rw [htext, takeDigits_append (by decide) hothers hend'] at heq
  exact hdot _ (Prod.mk.inj heq).2.symm

/-! ## IPv6 -/

theorem takeGroups_append {pieces : List (List Char)} {groups : List UInt16} {dotted : Bool}
    {room : Nat} (h : ArePieces pieces groups dotted) (hroom : groups.length ≤ room)
    (hend : Closes rest) (first : Bool) :
    takeGroups room first (joined first pieces ++ rest) = (groups, dotted, rest) := by
  -- a piece starts behind its colon, if it has one
  have hstart (first : Bool) (text : List Char) :
      (if first then some ((if first then [] else [':']) ++ text)
        else takeChar? ':' ((if first then [] else [':']) ++ text)) = some text := by
    cases first <;> simp
  induction h generalizing room first with
  | nil => exact hend.takeGroups_eq room first
  | dotted ip =>
    obtain ⟨room, rfl⟩ : ∃ n, room = n + 2 := ⟨room - 2, by simp [Ipv4.groups] at hroom; omega⟩
    have htake := Ipv4.take?_append ip (hend.joined_digitsEnd (by decide) []).1
    rw [joined, List.nil_append] at htake
    simp only [joined, List.append_nil, List.append_assoc]
    rw [takeGroups]
    simp only [hstart, Nat.add_eq_zero_iff, one_ne_zero, and_false, if_false, htake]
  | @group piece group pieces groups dotted hpiece _ ih =>
    obtain ⟨room, rfl⟩ : ∃ n, room = n + 1 := ⟨room - 1, by simp at hroom; omega⟩
    obtain ⟨hdigits, hdot⟩ := hend.joined_digitsEnd (by decide : 16 ≤ 16) pieces
    have hv4 := hpiece.take?_append hdigits hdot
    have hgroup := takeGroup?_append hpiece hdigits
    have hrest := ih (by simpa using hroom) false
    simp only [joined, List.append_assoc]
    rw [takeGroups]
    simp only [hstart, hv4, hgroup, hrest, ite_self]

theorem eq_append_of_takeGroups {room : Nat} {first : Bool} {groups : List UInt16} {dotted : Bool}
    (h : takeGroups room first text = (groups, dotted, rest)) : ∃ pieces,
      ArePieces pieces groups dotted ∧ text = joined first pieces ++ rest ∧
        groups.length ≤ room := by
  induction room generalizing first text groups dotted with
  | zero =>
    cases h
    exact ⟨[], .nil, rfl, Nat.le_refl 0⟩
  | succ room ih =>
    have hnone : ∃ pieces, ArePieces pieces [] false ∧ text = joined first pieces ++ text ∧
        ([] : List UInt16).length ≤ room + 1 := ⟨[], .nil, rfl, Nat.zero_le _⟩
    rw [takeGroups] at h
    split at h
    · cases h
      exact hnone
    · next start hstart =>
      have htext : text = (if first then [] else [':']) ++ start := by
        cases first <;> simpa using hstart
      split at h
      · next ip tail htake =>
        -- the last piece is an IPv4 address
        split at htake
        · cases htake
        · next hroom =>
          cases h
          refine ⟨[ip.render.toList], .dotted ip, ?_, ?_⟩
          · rw [htext, Ipv4.eq_append_of_take? htake]
            simp [joined]
          · simp only [Ipv4.groups, List.length_cons, List.length_nil]
            omega
      · split at h
        · cases h
          exact hnone
        · next group tail hgroup =>
          obtain ⟨piece, rfl, hpiece⟩ := eq_append_of_takeGroup? hgroup
          rcases htail : takeGroups room false tail with ⟨groups, dotted, rest⟩
          rw [htail] at h
          cases h
          obtain ⟨pieces, hpieces, rfl, hle⟩ := ih htail
          refine ⟨piece :: pieces, .group hpiece hpieces, ?_, Nat.succ_le_succ hle⟩
          rw [htext]
          simp [joined]

theorem Ipv6.toList_ofEnds {front back : List UInt16} (h : front.length + back.length ≤ 8) :
    (Ipv6.ofEnds front back).groups.toList =
      front ++ List.replicate (8 - front.length - back.length) 0 ++ back := by
  have hlength :
      (front ++ List.replicate (8 - front.length - back.length) 0 ++ back).length = 8 := by
    simp
    omega
  refine List.ext_getElem (by rw [hlength, Vector.length_toList]) fun i hi hi' => ?_
  simp only [Ipv6.ofEnds, Vector.getElem_toList, Vector.getElem_ofFn]
  rw [List.getD_eq_getElem?_getD, List.getElem?_eq_getElem hi', Option.getD_some]

theorem Ipv6.eq_ofEnds {ip : Ipv6} {front back : List UInt16}
    (h : front.length + back.length ≤ 8) (hip : ip.groups.toList =
      front ++ List.replicate (8 - front.length - back.length) 0 ++ back) :
    ip = Ipv6.ofEnds front back := by
  rw [← Ipv6.toList_ofEnds h, Vector.toList_inj] at hip
  cases ip
  cases hip
  rfl

theorem Ipv6.take?_append {ip : Ipv6} (h : IsIpv6 text ip) (hend : Closes rest) :
    Ipv6.take? (text ++ rest) = some (ip, rest) := by
  cases h with
  | @full pieces dotted _ hpieces =>
    have hlength : ip.groups.toList.length = 8 := by simp
    have htake := takeGroups_append hpieces hlength.le hend true
    have hip : ip = Ipv6.ofEnds ip.groups.toList [] := Ipv6.eq_ofEnds (by simp) (by simp)
    rw [joined_true] at htake
    simp only [Ipv6.take?, htake, hlength, if_pos]
    rw [← hip]
  | @short front back frontGroups backGroups dotted _ hfront hback hzeros hip =>
    have hfrontLe : frontGroups.length ≤ 8 := by omega
    have hbackLe : backGroups.length ≤ 7 - frontGroups.length := by omega
    have hfrontTake := takeGroups_append hfront hfrontLe
      (.colons ([':'].intercalate back ++ rest)) true
    have hbackTake := takeGroups_append hback hbackLe hend true
    have hne : frontGroups.length ≠ 8 := by omega
    rw [joined_true] at hfrontTake hbackTake
    simp only [List.append_assoc, List.cons_append, Ipv6.take?, hfrontTake, hbackTake, hne,
      if_false]
    rw [← Ipv6.eq_ofEnds (by omega) hip]
    rfl

theorem Ipv6.eq_append_of_take? {ip : Ipv6} (h : Ipv6.take? text = some (ip, rest)) :
    ∃ address, text = address ++ rest ∧ IsIpv6 address ip := by
  rcases htake : takeGroups 8 true text with ⟨front, dotted, tail⟩
  obtain ⟨pieces, hpieces, rfl, hle⟩ := eq_append_of_takeGroups htake
  rw [joined_true] at htake h ⊢
  simp only [Ipv6.take?, htake] at h
  split at h
  · next hlength =>
    cases h
    have hfront : (Ipv6.ofEnds front []).groups.toList = front := by
      rw [Ipv6.toList_ofEnds (by simp [hlength]), List.append_nil, hlength, List.length_nil,
        List.replicate_zero, List.append_nil]
    exact ⟨_, rfl, .full (hfront.symm ▸ hpieces)⟩
  · next hlength =>
    split at h
    · cases h
    · next hplain =>
      split at h
      · next tail =>
        rcases hback : takeGroups (7 - front.length) true tail with ⟨back, dotted, rest⟩
        obtain ⟨backPieces, hbackPieces, rfl, hbackLe⟩ := eq_append_of_takeGroups hback
        simp only [hback, Option.some.injEq, Prod.mk.injEq] at h
        obtain ⟨rfl, rfl⟩ := h
        rw [Bool.not_eq_true] at hplain
        subst hplain
        refine ⟨_, ?_, .short hpieces hbackPieces (by omega) (Ipv6.toList_ofEnds (by omega))⟩
        simp [joined_true]
      · cases h

/-! ## Socket addresses -/

namespace SocketAddress

theorem port?_append {p : UInt16} (h : Spells 10 digits p.toNat) :
    port? (':' :: digits) = some p := by
  have hle : p.toNat ≤ maxU16 := Nat.le_of_lt_succ p.toNat_lt
  have htake := takeNumber?_append (by decide) h hle digitsEnd_nil
  rw [List.append_nil] at htake
  simp [port?, takeChar?, htake]

theorem eq_append_of_port? {p : UInt16} (h : port? text = some p) :
    ∃ digits, text = ':' :: digits ∧ Spells 10 digits p.toNat := by
  simp only [port?, Option.bind_eq_bind, Option.bind_eq_some_iff, takeChar?_eq_some_iff,
    Prod.exists] at h
  obtain ⟨_, rfl, n, rest, htake, hrest⟩ := h
  obtain ⟨digits, rfl, hdigits, hle⟩ := eq_append_of_takeNumber? (by decide) htake
  split at hrest
  · next hnil =>
    cases hrest
    refine ⟨digits, by rw [hnil, List.append_nil], ?_⟩
    rwa [UInt16.toNat_ofNat_of_lt' (Nat.lt_succ_of_le hle)]
  · cases hrest

theorem v4?_eq_some_iff {address : SocketAddress} : v4? text = some address ↔
    ∃ ip p port, text = ip.render.toList ++ ':' :: port ∧ Spells 10 port p.toNat ∧
      address = .v4 ip p := by
  constructor
  · intro h
    simp only [v4?, Option.bind_eq_bind, Option.bind_eq_some_iff, Prod.exists, Option.pure_def,
      Option.some.injEq] at h
    obtain ⟨ip, _, hip, p, hport, rfl⟩ := h
    obtain ⟨port, rfl, hspells⟩ := eq_append_of_port? hport
    exact ⟨ip, p, port, Ipv4.eq_append_of_take? hip, hspells, rfl⟩
  · rintro ⟨ip, p, port, rfl, hspells, rfl⟩
    have hcolon : DigitsEnd 10 (':' :: port) := digitsEnd_cons (by decide) (by decide)
    simp [v4?, Ipv4.take?_append ip hcolon, port?_append hspells]

theorem takeScope?_append {scope : List Char} {s : UInt32} (h : Spells 10 scope s.toNat)
    (rest : List Char) : takeScope? ('%' :: (scope ++ ']' :: rest)) = some (s, ']' :: rest) := by
  have hle : s.toNat ≤ maxU32 := Nat.le_of_lt_succ s.toNat_lt
  have hend : DigitsEnd 10 (']' :: rest) := digitsEnd_cons (by decide) (by decide)
  simp [takeScope?, takeNumber?_append (by decide) h hle hend]

theorem eq_append_of_takeScope? {s : UInt32} (h : takeScope? text = some (s, rest)) :
    (∃ scope, text = '%' :: (scope ++ rest) ∧ Spells 10 scope s.toNat) ∨ (text = rest ∧ s = 0) := by
  unfold takeScope? at h
  split at h
  · simp only [Option.map_eq_some_iff, Prod.mk.injEq, Prod.exists] at h
    obtain ⟨n, _, htake, rfl, rfl⟩ := h
    obtain ⟨scope, rfl, hscope, hle⟩ := eq_append_of_takeNumber? (by decide) htake
    refine .inl ⟨scope, rfl, ?_⟩
    rwa [UInt32.toNat_ofNat_of_lt' (Nat.lt_succ_of_le hle)]
  · cases h
    exact .inr ⟨rfl, rfl⟩

theorem eq_of_v6? {address : SocketAddress} (h : v6? text = some address) :
    IsSocketAddress text address := by
  simp only [v6?, Option.bind_eq_bind, Option.bind_eq_some_iff, Prod.exists, Option.pure_def,
    Option.some.injEq, takeChar?_eq_some_iff] at h
  obtain ⟨_, rfl, ip, _, hip, s, _, hscope, _, rfl, p, hport, rfl⟩ := h
  obtain ⟨address, rfl, haddress⟩ := Ipv6.eq_append_of_take? hip
  obtain ⟨port, rfl, hspells⟩ := eq_append_of_port? hport
  rcases eq_append_of_takeScope? hscope with ⟨scope, rfl, hs⟩ | ⟨rfl, rfl⟩
  · exact .v6Scoped haddress hs hspells
  · exact .v6 haddress hspells

/-- The texts of an address are read as the address, and nothing else is read. -/
theorem parse?_eq_some_iff {text : String} {address : SocketAddress} :
    parse? text = some address ↔ IsSocketAddress text.toList address := by
  -- the bracket tells the two families apart
  have hv4 (text : List Char) : v4? ('[' :: text) = none := by
    simp [v4?, Ipv4.take?, takeOctet?, takeDigits, digitValue?]
  unfold parse?
  generalize text.toList = text
  constructor
  · intro h
    cases hfirst : v4? text with
    | none =>
      rw [hfirst] at h
      exact eq_of_v6? h
    | some _ =>
      rw [hfirst] at h
      cases h
      obtain ⟨ip, p, port, rfl, hport, rfl⟩ := v4?_eq_some_iff.1 hfirst
      exact .v4 ip hport
  · intro h
    cases h with
    | v4 ip hport =>
      rw [v4?_eq_some_iff.2 ⟨ip, _, _, rfl, hport, rfl⟩]
      rfl
    | @v6 text port ip p hip hport =>
      have htake := Ipv6.take?_append hip (.bracket (':' :: port))
      simp [hv4, v6?, takeChar?, htake, takeScope?, port?_append hport]
    | @v6Scoped text scope port ip s p hip hscope hport =>
      have htake := Ipv6.take?_append hip (.scope (scope ++ ']' :: ':' :: port))
      simp [hv4, v6?, takeChar?, htake, takeScope?_append hscope, port?_append hport]

end SocketAddress
end Caretaker.Net
