import UbirchClient.Go.Basic
set_option autoImplicit false

/-!
# `unicode/utf8`: runes, `DecodeRune` and `EncodeRune`

WHAT THIS FILE IS FOR.  `encoding/json` decodes every JSON string into a Go string
that is valid UTF-8: raw bytes are read with `utf8.DecodeRune`, and a byte that does
not start a well-formed sequence becomes `U+FFFD`.  The decoded strings of the model
are therefore lists of `Rune`, a Unicode scalar value carrying its own range proof,
and the encoder writes them back with `utf8.EncodeRune`.

THE ONE FACT PROVED HERE.  `decodeRune_encodeRune`: decoding the encoding of a rune,
followed by anything, returns that rune and the encoding's length.  Everything the
JSON layer says about strings surviving a decode/encode round trip rests on it.
-/

namespace UbirchClient.Go

/-- A Unicode scalar value: a code point that is not a surrogate. -/
structure Rune where
  val : Nat
  valid : val < 0xD800 ∨ (0xE000 ≤ val ∧ val < 0x110000)
  deriving DecidableEq, Repr

/-- `utf8.RuneError`, `U+FFFD`. -/
def runeError : Rune := ⟨0xFFFD, by decide⟩

/-- The rune of a code point; surrogates and values past `U+10FFFF` become
`U+FFFD`, as `utf8.EncodeRune` treats them. -/
def Rune.ofNat (n : Nat) : Rune :=
  if h : n < 0xD800 ∨ (0xE000 ≤ n ∧ n < 0x110000) then ⟨n, h⟩ else runeError

theorem Rune.ofNat_val (r : Rune) : Rune.ofNat r.val = r := by
  simp [Rune.ofNat, r.valid]

/-- A continuation byte, `%x80-BF`. -/
def isTail (n : Nat) : Prop := 0x80 ≤ n ∧ n ≤ 0xBF

instance (n : Nat) : Decidable (isTail n) := inferInstanceAs (Decidable (_ ∧ _))

/-- The admissible range of the second byte after a three-byte lead (`acceptRanges`). -/
def secondRange3 (n0 : Nat) : Nat × Nat :=
  if n0 = 0xE0 then (0xA0, 0xBF) else if n0 = 0xED then (0x80, 0x9F) else (0x80, 0xBF)

/-- The admissible range of the second byte after a four-byte lead. -/
def secondRange4 (n0 : Nat) : Nat × Nat :=
  if n0 = 0xF0 then (0x90, 0xBF) else if n0 = 0xF4 then (0x80, 0x8F) else (0x80, 0xBF)

/-- `utf8.DecodeRune`: the first rune of `p` and its width; `(RuneError, 1)` when
`p` does not start with a well-formed sequence, `(RuneError, 0)` when it is empty.
Byte tests are on byte values, as Go's `first` and `acceptRanges` tables are. -/
def decodeRune : GoString → Rune × Nat
  | [] => (runeError, 0)
  | b0 :: rest =>
    let n0 := b0.toNat
    if n0 < 0x80 then (Rune.ofNat n0, 1)
    else if 0xC2 ≤ n0 ∧ n0 ≤ 0xDF then
      match rest with
      | b1 :: _ =>
        if isTail b1.toNat then (Rune.ofNat (64 * (n0 % 32) + b1.toNat % 64), 2) else (runeError, 1)
      | [] => (runeError, 1)
    else if 0xE0 ≤ n0 ∧ n0 ≤ 0xEF then
      match rest with
      | b1 :: b2 :: _ =>
        if (secondRange3 n0).1 ≤ b1.toNat ∧ b1.toNat ≤ (secondRange3 n0).2 ∧ isTail b2.toNat then
          (Rune.ofNat (4096 * (n0 % 16) + 64 * (b1.toNat % 64) + b2.toNat % 64), 3)
        else (runeError, 1)
      | _ => (runeError, 1)
    else if 0xF0 ≤ n0 ∧ n0 ≤ 0xF4 then
      match rest with
      | b1 :: b2 :: b3 :: _ =>
        if (secondRange4 n0).1 ≤ b1.toNat ∧ b1.toNat ≤ (secondRange4 n0).2 ∧ isTail b2.toNat ∧
            isTail b3.toNat then
          (Rune.ofNat (262144 * (n0 % 8) + 4096 * (b1.toNat % 64) + 64 * (b2.toNat % 64) +
            b3.toNat % 64), 4)
        else (runeError, 1)
      | _ => (runeError, 1)
    else (runeError, 1)

/-- `utf8.EncodeRune`. -/
def encodeRune (r : Rune) : GoString :=
  if r.val < 0x80 then [UInt8.ofNat r.val]
  else if r.val < 0x800 then [UInt8.ofNat (0xC0 + r.val / 64), UInt8.ofNat (0x80 + r.val % 64)]
  else if r.val < 0x10000 then
    [UInt8.ofNat (0xE0 + r.val / 4096), UInt8.ofNat (0x80 + r.val / 64 % 64),
      UInt8.ofNat (0x80 + r.val % 64)]
  else
    [UInt8.ofNat (0xF0 + r.val / 262144), UInt8.ofNat (0x80 + r.val / 4096 % 64),
      UInt8.ofNat (0x80 + r.val / 64 % 64), UInt8.ofNat (0x80 + r.val % 64)]

/-- A Go string built from runes (`string([]rune)`). -/
def utf8Bytes (s : List Rune) : GoString := s.flatMap encodeRune

theorem encodeRune_ne_nil (r : Rune) : encodeRune r ≠ [] := by
  unfold encodeRune; split_ifs <;> simp

/-- An ASCII rune is its own byte. -/
theorem encodeRune_of_lt {r : Rune} (h : r.val < 0x80) : encodeRune r = [UInt8.ofNat r.val] := by
  simp [encodeRune, h]

/-- Every byte of a non-ASCII rune's encoding is `>= 0x80`. -/
theorem encodeRune_bytes_ge {r : Rune} (h : 0x80 ≤ r.val) : ∀ b ∈ encodeRune r, 0x80 ≤ b := by
  have hr := r.valid
  unfold encodeRune
  split_ifs <;> simp only [List.mem_cons, List.mem_singleton, List.not_mem_nil, or_false] <;>
    rintro b (rfl | rfl | rfl | rfl) <;> rw [le_iff_toNat_le, toNat_ofNat (by omega)] <;>
      show 128 ≤ _ <;> omega

/-- Decoding the encoding of a rune gives the rune back, whatever follows it. -/
theorem decodeRune_encodeRune (r : Rune) (rest : GoString) :
    decodeRune (encodeRune r ++ rest) = (r, (encodeRune r).length) := by
  obtain ⟨v, hv⟩ := r
  have hr : Rune.ofNat v = ⟨v, hv⟩ := Rune.ofNat_val ⟨v, hv⟩
  simp only [encodeRune]
  split_ifs with h1 h2 h3
  · simp (disch := omega) only [decodeRune, toNat_ofNat, List.cons_append, List.nil_append, if_pos,
      hr, List.length_singleton]
  · have hval : 64 * ((0xC0 + v / 64) % 32) + (0x80 + v % 64) % 64 = v := by omega
    simp (disch := omega) only [decodeRune, toNat_ofNat, List.cons_append, List.nil_append, if_pos,
      if_neg, isTail, hval, hr, List.length_cons, List.length_nil]
  · have hval : 4096 * ((0xE0 + v / 4096) % 16) + 64 * ((0x80 + v / 64 % 64) % 64) +
        (0x80 + v % 64) % 64 = v := by omega
    simp (disch := omega) only [decodeRune, toNat_ofNat, List.cons_append, List.nil_append, if_pos,
      if_neg, isTail, hval, hr, List.length_cons, List.length_nil]
    rw [if_pos (by unfold secondRange3; split_ifs <;> simp <;> omega)]
  · have hval : 262144 * ((0xF0 + v / 262144) % 8) + 4096 * ((0x80 + v / 4096 % 64) % 64) +
        64 * ((0x80 + v / 64 % 64) % 64) + (0x80 + v % 64) % 64 = v := by omega
    simp (disch := omega) only [decodeRune, toNat_ofNat, List.cons_append, List.nil_append, if_pos,
      if_neg, isTail, hval, hr, List.length_cons, List.length_nil]
    rw [if_pos (by unfold secondRange4; split_ifs <;> simp <;> omega)]

/-- A byte from `0x80` up starts a prefix of at least one byte, all from `0x80` up:
the lead byte and its continuation bytes. -/
theorem decodeRune_prefix (b0 : UInt8) (rest : GoString) (h : 0x80 ≤ b0.toNat) :
    1 ≤ (decodeRune (b0 :: rest)).2 ∧
      ∀ b ∈ (b0 :: rest).take (decodeRune (b0 :: rest)).2, 0x80 ≤ b.toNat := by
  have r3 : ∀ n0, 0x80 ≤ (secondRange3 n0).1 := by intro n0; unfold secondRange3; split_ifs <;> decide
  have r4 : ∀ n0, 0x80 ≤ (secondRange4 n0).1 := by intro n0; unfold secondRange4; split_ifs <;> decide
  simp only [decodeRune, if_neg (show ¬ b0.toNat < 0x80 by omega)]
  split_ifs
  · split
    · split_ifs with ht
      · simp only [isTail] at ht; simp [h, ht.1]
      · simp [h]
    · simp [h]
  · split
    · split_ifs with ht
      · simp only [isTail] at ht
        have := r3 b0.toNat
        simp [h]; omega
      · simp [h]
    · simp [h]
  · split
    · split_ifs with ht
      · simp only [isTail] at ht
        have := r4 b0.toNat
        simp [h]; omega
      · simp [h]
    · simp [h]
  · simp [h]

end UbirchClient.Go
