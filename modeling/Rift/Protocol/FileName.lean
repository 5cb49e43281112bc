import Rift.Protocol.Wire

/-! # Portable file names

The check of a file name works on the bytes of the text and on slices at byte positions. Here is the
grammar of portable names in characters, and the check decides it: a multi-byte character has no byte
that is forbidden, and a slice of three bytes that spells `COM` or `LPT` is three characters.

The main results are `any_forbiddenByte`, `splitAtByte_eq_some`, `isBase_iff`,
`checkFileName_ok_iff` and `Portable.of_sameLetters`. -/

namespace Rift.Protocol

open Rift.Lib Rift.Lib.Postcard

/-! ### The grammar -/

/-- An ASCII control, a slash, a backslash or one of `<>:"|?*`. -/
def Forbidden (c : Char) : Prop :=
  c.toNat < 32 ∨ c.toNat = 127 ∨ c ∈ ['/', '\\', '<', '>', ':', '"', '|', '?', '*']

/-- The texts differ in the case of ASCII letters only. -/
def SameLetters (a b : List Char) : Prop := a.map Char.toLower = b.map Char.toLower

/-- The base of a name: what stands before the first dot, without the spaces at its end. -/
def IsBase (base name : List Char) : Prop :=
  ∃ spaces rest, name = base ++ (spaces ++ rest) ∧ '.' ∉ base ∧ base.getLast? ≠ some ' ' ∧
    (∀ c ∈ spaces, c = ' ') ∧ (rest = [] ∨ rest.head? = some '.')

/-- The device names that some platform reserves, in capitals. -/
def deviceNames : List (List Char) :=
  [['C', 'O', 'N'], ['P', 'R', 'N'], ['A', 'U', 'X'], ['N', 'U', 'L']] ++
    [['C', 'O', 'M'], ['L', 'P', 'T']].flatMap fun device =>
      ['1', '2', '3', '4', '5', '6', '7', '8', '9', '¹', '²', '³'].map fun digit =>
        device ++ [digit]

/-- The grammar of portable names. -/
structure Portable (name : String) : Prop where
  length : 1 ≤ name.utf8ByteSize ∧ name.utf8ByteSize ≤ 255
  allowed : ∀ c ∈ name.toList, ¬ Forbidden c
  ending : ∀ c, name.toList.getLast? = some c → c ≠ '.' ∧ c ≠ ' '
  base : ∀ base, IsBase base name.toList → ∀ device ∈ deviceNames, ¬ SameLetters base device

/-! ### Bytes and characters -/

theorem utf8EncodeChar_ascii {c : Char} (h : c.toNat < 128) :
    String.utf8EncodeChar c = [UInt8.ofNat c.toNat] :=
  if_pos (Nat.le_of_lt_succ h)

theorem utf8EncodeChar_high {c : Char} (h : 128 ≤ c.toNat) :
    ∀ b ∈ String.utf8EncodeChar c, 128 ≤ b.toNat := by
  have hv : ¬ c.val.toNat ≤ 127 := Nat.not_le.mpr h
  unfold String.utf8EncodeChar
  simp only [if_neg hv]
  split_ifs <;> simp [UInt8.toNat_ofNat'] <;> omega

theorem forbiddenByte_high {b : UInt8} (h : 128 ≤ b.toNat) : forbiddenByte b = false := by
  have hall : ∀ n < 256, 128 ≤ n → forbiddenByte (UInt8.ofNat n) = false := by decide +kernel
  rw [← UInt8.ofNat_toNat (x := b)]
  exact hall _ b.toNat_lt h

theorem forbiddenByte_ascii {c : Char} (h : c.toNat < 128) :
    forbiddenByte (UInt8.ofNat c.toNat) = true ↔ Forbidden c := by
  have hall : ∀ n < 128, forbiddenByte (UInt8.ofNat n) = true ↔ Forbidden (Char.ofNat n) := by
    unfold Forbidden
    decide
  rw [hall _ h, Char.ofNat_toNat]

theorem any_forbiddenByte {name : List Char} :
    (utf8Bytes name).any forbiddenByte = true ↔ ∃ c ∈ name, Forbidden c := by
  have hchar : ∀ c, (∃ b ∈ String.utf8EncodeChar c, forbiddenByte b = true) ↔ Forbidden c := by
    intro c
    by_cases hc : c.toNat < 128
    · rw [utf8EncodeChar_ascii hc]
      simp [forbiddenByte_ascii hc]
    · refine ⟨fun ⟨b, hb, hf⟩ => ?_, fun hf => ?_⟩
      · rw [forbiddenByte_high (utf8EncodeChar_high (Nat.not_lt.mp hc) b hb)] at hf
        cases hf
      · rcases hf with h | h | h
        · omega
        · omega
        · have hall := List.all_eq_true.mp (show List.all _ (·.toNat < 128) = true by decide) c h
          exact absurd (of_decide_eq_true hall) hc
  simp only [utf8Bytes, List.any_eq_true, List.mem_flatMap]
  constructor
  · rintro ⟨b, ⟨c, hc, hb⟩, hf⟩
    exact ⟨c, hc, (hchar c).mp ⟨b, hb, hf⟩⟩
  · rintro ⟨c, hc, hf⟩
    obtain ⟨b, hb, hfb⟩ := (hchar c).mpr hf
    exact ⟨b, ⟨c, hc, hb⟩, hfb⟩

@[simp] theorem utf8Bytes_cons (c : Char) (text : List Char) :
    utf8Bytes (c :: text) = String.utf8EncodeChar c ++ utf8Bytes text := rfl

theorem splitAtByte_eq_some : ∀ {n : ℕ} {text before after : List Char},
    splitAtByte n text = some (before, after) ↔
      text = before ++ after ∧ (utf8Bytes before).length = n
  | 0, text, before, after => by
    have hz : (utf8Bytes before).length = 0 ↔ before = [] := by
      cases before with
      | nil => simp [utf8Bytes]
      | cons c before => simp [c.utf8Size_pos.ne']
    simp only [splitAtByte, Option.some.injEq, Prod.mk.injEq, hz]
    constructor
    · rintro ⟨rfl, rfl⟩
      exact ⟨rfl, rfl⟩
    · rintro ⟨rfl, rfl⟩
      exact ⟨rfl, rfl⟩
  | n + 1, [], before, after => by
    simp only [splitAtByte, false_iff, reduceCtorEq]
    rintro ⟨h, hl⟩
    obtain ⟨rfl, -⟩ := List.append_eq_nil_iff.mp h.symm
    cases hl
  | n + 1, c :: text, before, after => by
    have hpos := c.utf8Size_pos
    rw [splitAtByte]
    rcases before with _ | ⟨d, before⟩
    · split_ifs <;> simp [utf8Bytes]
    · rw [utf8Bytes_cons, List.length_append, String.length_utf8EncodeChar, List.cons_append,
        List.cons.injEq]
      split_ifs with hle
      · simp only [Option.map_eq_some_iff, Prod.exists, Prod.mk.injEq, List.cons.injEq]
        constructor
        · rintro ⟨x, y, hs, ⟨rfl, rfl⟩, rfl⟩
          obtain ⟨rfl, hl⟩ := splitAtByte_eq_some.mp hs
          exact ⟨⟨rfl, rfl⟩, by omega⟩
        · rintro ⟨⟨rfl, rfl⟩, hl⟩
          exact ⟨before, after, splitAtByte_eq_some.mpr ⟨rfl, by omega⟩, ⟨rfl, rfl⟩, rfl⟩
      · refine iff_of_false (by simp) ?_
        rintro ⟨⟨rfl, -⟩, hl⟩
        omega

/-! ### The case of letters -/

theorem toLower_high {c : Char} (h : 128 ≤ c.toNat) : c.toLower = c := by
  unfold Char.toLower
  refine dif_neg fun hc => ?_
  have : c.val.toNat ≤ 90 := UInt32.le_iff_toNat_le.mp hc.2
  exact absurd (show 128 ≤ c.val.toNat from h) (by omega)

theorem ascii_cases {P : Char → Prop} (ascii : ∀ n < 128, P (Char.ofNat n))
    (high : ∀ c : Char, 128 ≤ c.toNat → P c) (c : Char) : P c := by
  rcases Nat.lt_or_ge c.toNat 128 with h | h
  · rw [← Char.ofNat_toNat c]
    exact ascii _ h
  · exact high c h

theorem toLower_eq_iff {c d : Char} (hd : d.isAlpha = false) : c.toLower = d ↔ c = d := by
  have hc : c.toLower = c ∨ c.isAlpha = true ∧ c.toLower.isAlpha = true :=
    ascii_cases (P := fun c => c.toLower = c ∨ c.isAlpha = true ∧ c.toLower.isAlpha = true)
      (by decide) (fun c h => .inl (toLower_high h)) c
  rcases hc with h | ⟨h, hl⟩
  · rw [h]
  · constructor
    · rintro rfl
      exact absurd hl (by simp [hd])
    · rintro rfl
      exact absurd h (by simp [hd])

theorem utf8Size_toLower (c : Char) : c.toLower.utf8Size = c.utf8Size :=
  ascii_cases (P := fun c => c.toLower.utf8Size = c.utf8Size) (by decide)
    (fun c h => by rw [toLower_high h]) c

theorem forbidden_toLower (c : Char) : Forbidden c.toLower ↔ Forbidden c :=
  ascii_cases (P := fun c => Forbidden c.toLower ↔ Forbidden c) (by unfold Forbidden; decide)
    (fun c h => by rw [toLower_high h]) c

theorem length_utf8Bytes_toLower (text : List Char) :
    (utf8Bytes (text.map Char.toLower)).length = (utf8Bytes text).length := by
  induction text with
  | nil => rfl
  | cons c text ih => simp [ih, utf8Size_toLower]

namespace SameLetters

variable {a b : List Char}

theorem length_eq (h : SameLetters a b) : (utf8Bytes a).length = (utf8Bytes b).length := by
  rw [← length_utf8Bytes_toLower a, h, length_utf8Bytes_toLower]

theorem forbidden (h : SameLetters a b) (hb : ∃ c ∈ b, Forbidden c) : ∃ c ∈ a, Forbidden c := by
  obtain ⟨c, hc, hf⟩ := hb
  have hmem : c.toLower ∈ a.map Char.toLower := h ▸ List.mem_map_of_mem hc
  obtain ⟨d, hd, hdc⟩ := List.mem_map.mp hmem
  exact ⟨d, hd, (forbidden_toLower d).mp (hdc ▸ (forbidden_toLower c).mpr hf)⟩

theorem getLast? (h : SameLetters a b) {d : Char} (hd : d.isAlpha = false) :
    a.getLast? = some d ↔ b.getLast? = some d := by
  have hlast : ∀ l : List Char, l.getLast? = some d ↔ (l.map Char.toLower).getLast? = some d := by
    intro l
    rw [List.getLast?_map, Option.map_eq_some_iff]
    constructor
    · exact fun hl => ⟨d, hl, (toLower_eq_iff hd).mpr rfl⟩
    · rintro ⟨c, hl, hc⟩
      rw [hl, (toLower_eq_iff hd).mp hc]
  rw [hlast a, h, ← hlast b]

end SameLetters

/-! ### The base of a name -/

theorem rdropWhile_append_spaces {base spaces : List Char} (hb : base.getLast? ≠ some ' ')
    (hs : ∀ c ∈ spaces, c = ' ') : (base ++ spaces).rdropWhile (· = ' ') = base := by
  induction spaces using List.reverseRecOn with
  | nil =>
    rw [List.append_nil, List.rdropWhile_eq_self_iff]
    intro hne hl
    exact hb (by rw [List.getLast?_eq_some_getLast hne]; simpa using hl)
  | append_singleton spaces c ih =>
    rw [← List.append_assoc, List.rdropWhile_concat, if_pos (by simpa using hs c (by simp))]
    exact ih fun d hd => hs d (by simp [hd])

theorem isBase_iff {base name : List Char} : IsBase base name ↔ base = stem name := by
  constructor
  · rintro ⟨spaces, rest, rfl, hdot, hlast, hspaces, hrest⟩
    have hin : ∀ c ∈ base ++ spaces, decide (c ≠ '.') = true := by
      intro c hc
      rcases List.mem_append.mp hc with hc | hc
      · exact decide_eq_true fun h => hdot (h ▸ hc)
      · rw [hspaces c hc]
        rfl
    have hout : rest.takeWhile (· ≠ '.') = [] := by
      rcases hrest with rfl | hrest
      · rfl
      · obtain ⟨tail, rfl⟩ := List.head?_eq_some_iff.mp hrest
        rfl
    unfold stem
    rw [← List.append_assoc, List.takeWhile_append_of_pos hin, hout, List.append_nil,
      rdropWhile_append_spaces hlast hspaces]
  · rintro rfl
    refine ⟨(name.takeWhile (· ≠ '.')).rtakeWhile (· = ' '), name.dropWhile (· ≠ '.'), ?_, ?_, ?_,
      fun c hc => by simpa using List.mem_rtakeWhile_imp hc, ?_⟩
    · unfold stem
      rw [← List.append_assoc, List.rdropWhile_append_rtakeWhile, List.takeWhile_append_dropWhile]
    · intro hdot
      have hmem := (List.rdropWhile_prefix _ _).subset hdot
      simpa using List.mem_takeWhile_imp hmem
    · intro hlast
      have hne : stem name ≠ [] := by
        intro hnil
        rw [hnil] at hlast
        cases hlast
      have hl := List.rdropWhile_last_not _ _ hne
      rw [List.getLast?_eq_some_getLast hne, Option.some.injEq] at hlast
      exact hl (decide_eq_true hlast)
    · rcases hrest : name.dropWhile (· ≠ '.') with _ | ⟨c, rest⟩
      · exact Or.inl rfl
      · have hc := List.head?_dropWhile_not (fun c : Char => decide (c ≠ '.')) name
        rw [hrest] at hc
        exact Or.inr (by simpa using hc)

theorem stem_toLower (name : List Char) :
    stem (name.map Char.toLower) = (stem name).map Char.toLower := by
  obtain ⟨spaces, rest, hname, hdot, hlast, hspaces, hrest⟩ := isBase_iff.mpr (Eq.refl (stem name))
  refine (isBase_iff.mp ⟨spaces.map Char.toLower, rest.map Char.toLower, ?_, ?_, ?_, ?_, ?_⟩).symm
  · rw [← List.map_append, ← List.map_append, ← hname]
  · intro hmem
    obtain ⟨c, hc, hcd⟩ := List.mem_map.mp hmem
    exact hdot ((toLower_eq_iff (by decide)).mp hcd ▸ hc)
  · rw [List.getLast?_map]
    intro hl
    obtain ⟨c, hc, hcs⟩ := Option.map_eq_some_iff.mp hl
    exact hlast ((toLower_eq_iff (by decide)).mp hcs ▸ hc)
  · intro c hc
    obtain ⟨d, hd, rfl⟩ := List.mem_map.mp hc
    rw [hspaces d hd]
    rfl
  · rcases hrest with rfl | hrest
    · exact Or.inl rfl
    · refine Or.inr ?_
      rw [List.head?_map, hrest]
      rfl

/-! ### The check -/

theorem eqIgnoreAsciiCase_iff {a b : List Char} :
    eqIgnoreAsciiCase a b = true ↔ SameLetters a b := decide_eq_true_iff

theorem numbered_iff (base : List Char) {device : List Char} (hdevice : (utf8Bytes device).length = 3)
    {digits : List Char} (hdigits : ∀ digit ∈ digits, digit.isAlpha = false) :
    (match splitAtByte 3 base with
      | some (part, suffix) =>
        eqIgnoreAsciiCase part device && decide (suffix ∈ digits.map fun digit => [digit])
      | none => false) = true ↔
      ∃ digit ∈ digits, SameLetters base (device ++ [digit]) := by
  constructor
  · intro h
    split at h
    · next part suffix hsplit =>
      obtain ⟨rfl, -⟩ := splitAtByte_eq_some.mp hsplit
      rw [Bool.and_eq_true, eqIgnoreAsciiCase_iff, decide_eq_true_iff, List.mem_map] at h
      obtain ⟨hpart, digit, hdigit, rfl⟩ := h
      refine ⟨digit, hdigit, ?_⟩
      unfold SameLetters
      rw [List.map_append, List.map_append, hpart]
    · cases h
  · rintro ⟨digit, hdigit, hsame⟩
    unfold SameLetters at hsame
    rw [List.map_append, List.map_eq_append_iff] at hsame
    obtain ⟨part, suffix, rfl, hpart, hsuffix⟩ := hsame
    obtain ⟨c, rfl, hc⟩ := List.map_eq_singleton_iff.mp hsuffix
    have hlower : digit.toLower = digit := (toLower_eq_iff (hdigits digit hdigit)).mpr rfl
    rw [hlower, toLower_eq_iff (hdigits digit hdigit)] at hc
    have hlen : (utf8Bytes part).length = 3 := (SameLetters.length_eq hpart).trans hdevice
    rw [splitAtByte_eq_some.mpr ⟨rfl, hlen⟩]
    simp [eqIgnoreAsciiCase_iff.mpr hpart, hc, hdigit]

theorem reservedStem_iff {base : List Char} :
    reservedStem base = true ↔ ∃ device ∈ deviceNames, SameLetters base device := by
  have hdigits : ∀ digit ∈ ['1', '2', '3', '4', '5', '6', '7', '8', '9', '¹', '²', '³'],
      digit.isAlpha = false := by
    simp only [List.forall_mem_cons, List.not_mem_nil, false_implies, implies_true]
    decide
  have hnumbered : ∀ device ∈ [['C', 'O', 'M'], ['L', 'P', 'T']],
      (utf8Bytes device).length = 3 := by decide
  unfold reservedStem deviceNames
  simp only [Bool.or_eq_true, List.any_eq_true, eqIgnoreAsciiCase_iff, List.mem_append, or_and_right,
    exists_or, List.mem_flatMap]
  refine or_congr Iff.rfl ?_
  constructor
  · rintro ⟨device, hdevice, h⟩
    obtain ⟨digit, hdigit, hsame⟩ := (numbered_iff base (hnumbered device hdevice) hdigits).mp h
    exact ⟨_, ⟨device, hdevice, List.mem_map_of_mem hdigit⟩, hsame⟩
  · rintro ⟨_, ⟨device, hdevice, hmem⟩, hsame⟩
    obtain ⟨digit, hdigit, rfl⟩ := List.mem_map.mp hmem
    exact ⟨device, hdevice,
      (numbered_iff base (hnumbered device hdevice) hdigits).mpr ⟨digit, hdigit, hsame⟩⟩

/-- **The check decides the grammar.** -/
theorem checkFileName_ok_iff {name : String} :
    checkFileName name.toList = .ok () ↔ Portable name := by
  have hlen := length_utf8Bytes name
  have hnil : name.toList = [] ↔ name.utf8ByteSize = 0 := by
    rw [← hlen]
    cases name.toList with
    | nil => simp [utf8Bytes]
    | cons c text => simp [c.utf8Size_pos.ne']
  unfold checkFileName maxTransferFileNameLen
  simp only [hlen, hnil]
  split_ifs with hlength hending hreserved
  · refine iff_of_false (by simp) fun h => ?_
    have := h.length
    omega
  · refine iff_of_false (by simp) fun h => ?_
    rcases hending with hl | hl | hl
    · exact (h.ending _ hl).1 rfl
    · exact (h.ending _ hl).2 rfl
    · obtain ⟨c, hc, hf⟩ := any_forbiddenByte.mp hl
      exact h.allowed c hc hf
  · refine iff_of_false (by simp) fun h => ?_
    obtain ⟨device, hdevice, hsame⟩ := reservedStem_iff.mp hreserved
    exact h.base _ (isBase_iff.mpr rfl) device hdevice hsame
  · refine iff_of_true rfl ⟨by omega, ?_, ?_, ?_⟩
    · exact fun c hc hf => hending (.inr (.inr (any_forbiddenByte.mpr ⟨c, hc, hf⟩)))
    · intro c hc
      exact ⟨fun h => hending (.inl (h ▸ hc)), fun h => hending (.inr (.inl (h ▸ hc)))⟩
    · intro base hbase device hdevice hsame
      rw [isBase_iff.mp hbase] at hsame
      exact hreserved (reservedStem_iff.mpr ⟨device, hdevice, hsame⟩)

theorem Portable.of_sameLetters {a b : String} (h : SameLetters a.toList b.toList)
    (ha : Portable a) : Portable b where
  length := by
    have hlen := h.length_eq
    rw [length_utf8Bytes, length_utf8Bytes] at hlen
    exact hlen ▸ ha.length
  allowed c hc hf := by
    obtain ⟨d, hd, hfd⟩ := h.forbidden ⟨c, hc, hf⟩
    exact ha.allowed d hd hfd
  ending c hc := by
    refine ⟨?_, ?_⟩
    · rintro rfl
      exact (ha.ending '.' ((h.getLast? (by decide)).mpr hc)).1 rfl
    · rintro rfl
      exact (ha.ending ' ' ((h.getLast? (by decide)).mpr hc)).2 rfl
  base base hbase device hdevice hsame := by
    refine ha.base _ (isBase_iff.mpr rfl) device hdevice ?_
    have hstem : SameLetters (stem a.toList) (stem b.toList) := by
      unfold SameLetters at h ⊢
      rw [← stem_toLower, h, stem_toLower]
    rw [← isBase_iff.mp hbase] at hstem
    exact hstem.trans hsame

/-! ### Names as values -/

theorem new_eq_ok_iff {s : String} {name : TransferFileName} :
    TransferFileName.new s = .ok name ↔ name.value = s := by
  constructor
  · intro h
    unfold TransferFileName.new at h
    split at h
    · cases h
      rfl
    · cases h
  · rintro rfl
    exact name.new_value

/-- The texts that are accepted as names. -/
def Accepted (s : String) : Prop := ∃ name, TransferFileName.new s = .ok name

theorem accepted_iff {s : String} : Accepted s ↔ Portable s := by
  rw [← checkFileName_ok_iff]
  constructor
  · rintro ⟨name, h⟩
    rw [← new_eq_ok_iff.mp h]
    exact name.portable
  · exact fun h => ⟨⟨s, h⟩, new_eq_ok_iff.mpr rfl⟩

theorem takeFileName_eq_some {input rest : Bytes} {name : TransferFileName} :
    takeFileName input = some (name, rest) ↔
      ∃ s, takeStr input = some (s, rest) ∧ TransferFileName.new s = .ok name := by
  unfold takeFileName
  rw [bind_eq_some]
  constructor
  · rintro ⟨s, b, hs, h⟩
    rcases hnew : TransferFileName.new s with e | name'
    · rw [hnew] at h
      cases h
    · rw [hnew] at h
      obtain ⟨rfl, rfl⟩ := pure_eq_some.mp h
      exact ⟨s, hs, hnew⟩
  · rintro ⟨s, hs, hnew⟩
    refine ⟨s, rest, hs, ?_⟩
    rw [hnew]
    rfl

/-- **The accepted names are the documented ones.** -/
theorem file_names_follow_the_grammar :
    (∀ s, Accepted s ↔ Portable s) ∧
    (∀ input rest name, takeFileName input = some (name, rest) ↔
      ∃ s, takeStr input = some (s, rest) ∧ TransferFileName.new s = .ok name) ∧
    (∀ s name, TransferFileName.new s = .ok name → name.value = s) ∧
    (∀ a b : String, SameLetters a.toList b.toList → (Accepted a ↔ Accepted b)) ∧
    ¬ Accepted "." ∧ ¬ Accepted ".." ∧
    ∀ s, Accepted s → ∀ base spaces extension, s.toList = base ++ (spaces ++ extension) →
      (∀ c ∈ spaces, c = ' ') → (extension = [] ∨ extension.head? = some '.') →
      ∀ device ∈ deviceNames, ¬ SameLetters base device := by
  refine ⟨fun s => accepted_iff, fun _ _ _ => takeFileName_eq_some, fun s name => new_eq_ok_iff.mp,
    fun a b h => ?_, ?_, ?_, ?_⟩
  · rw [accepted_iff, accepted_iff]
    exact ⟨.of_sameLetters h, .of_sameLetters h.symm⟩
  · exact fun h => ((accepted_iff.mp h).ending '.' rfl).1 rfl
  · exact fun h => ((accepted_iff.mp h).ending '.' rfl).1 rfl
  · intro s h base spaces extension hs hspaces hext device hdevice hsame
    refine (accepted_iff.mp h).base base ⟨spaces, extension, hs, ?_, ?_, hspaces, hext⟩ device
      hdevice hsame
    · intro hdot
      have hmem : '.' ∈ device.map Char.toLower := hsame ▸ List.mem_map_of_mem hdot
      exact absurd hmem ((by decide : ∀ d ∈ deviceNames, '.' ∉ d.map Char.toLower) device hdevice)
    · rw [Ne, hsame.getLast? (by decide)]
      exact (by decide : ∀ d ∈ deviceNames, d.getLast? ≠ some ' ') device hdevice

end Rift.Protocol
