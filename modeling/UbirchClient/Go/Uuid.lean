import UbirchClient.Go.Encoding
set_option autoImplicit false

/-!
# `github.com/google/uuid`: `Parse` and `UUID.String`

WHAT THIS FILE IS FOR.  Both HTTP surfaces take the device UUID from the URL and
parse it with `uuid.Parse`; the old api surface then looks the device up under
`id.String()`.  This file gives the two functions of the module version the
repository pins (`v1.1.1`).

`Parse` accepts four spellings, chosen by the byte length alone: 36 bytes
`xxxxxxxx-xxxx-xxxx-xxxx-xxxxxxxxxxxx`, 45 bytes with a `urn:uuid:` prefix
(compared after `strings.ToLower`), 38 bytes whose first byte is dropped unchecked
(meant for `{...}`), and 32 bare hex digits.  A non-ASCII prefix can never lower to
the ASCII `urn:uuid:`: Go's Unicode lowering maps a non-ASCII rune to an ASCII one
only by shrinking it (`İ` to `i`, the Kelvin sign to `k`), so nine such bytes lower
to fewer than nine; the prefix test below is therefore the ASCII one.

`parse_toGoString`: the string `String` writes parses back to the UUID.
-/

namespace UbirchClient.Go

/-- A `uuid.UUID`, the Go type `[16]byte`. -/
abbrev UUID := ByteArr 16

/-- `xtob`: the byte of two hex digits, if both are digits. -/
def xtob (x1 x2 : UInt8) : Option UInt8 :=
  match fromHexChar x1, fromHexChar x2 with
  | some a, some b => some (UInt8.ofNat (16 * a + b))
  | _, _ => none

/-- The errors of `uuid.Parse`. -/
inductive UuidError where
  /-- `invalidLengthError{len}` -/
  | invalidLength (n : Nat)
  /-- `invalid urn prefix: %q` -/
  | invalidUrnPrefix
  /-- `invalid UUID format` -/
  | invalidFormat
  deriving DecidableEq, Repr

/-- The bytes of hex pairs starting at each of the given offsets of `s`. -/
def xtobAt (s : GoString) : List Nat → Option (List UInt8)
  | [] => some []
  | x :: xs =>
    match xtob (s.getD x 0) (s.getD (x + 1) 0), xtobAt s xs with
    | some v, some vs => some (v :: vs)
    | _, _ => none

theorem length_xtobAt (s : GoString) :
    ∀ (xs : List Nat) (vs : List UInt8), xtobAt s xs = some vs → vs.length = xs.length
  | [], vs, h => by cases h; rfl
  | x :: xs, vs, h => by
    simp only [xtobAt] at h
    split at h
    · rename_i v vs' _ hvs
      cases h; simp [length_xtobAt s xs vs' hvs]
    · cases h

/-- The sixteen byte offsets of the canonical form `xxxxxxxx-xxxx-xxxx-xxxx-xxxxxxxxxxxx`. -/
def canonicalOffsets : List Nat := [0, 2, 4, 6, 9, 11, 14, 16, 19, 21, 24, 26, 28, 30, 32, 34]

/-- Offsets of the 32-digit form. -/
def bareOffsets : List Nat := (List.range 16).map (2 * ·)

/-- Sixteen hex pairs at `offsets`, as a `UUID`. -/
def uuidAt (s : GoString) (offsets : List Nat) (h : offsets.length = 16) :
    Except UuidError UUID :=
  match e : xtobAt s offsets with
  | some vs => .ok ⟨vs, (length_xtobAt s offsets vs e).trans h⟩
  | none => .error .invalidFormat

/-- The dashed form, once the prefix is gone: dashes at 8, 13, 18 and 23. -/
def parseDashed (s : GoString) : Except UuidError UUID :=
  if s.getD 8 0 ≠ 0x2D ∨ s.getD 13 0 ≠ 0x2D ∨ s.getD 18 0 ≠ 0x2D ∨ s.getD 23 0 ≠ 0x2D then
    .error .invalidFormat
  else uuidAt s canonicalOffsets rfl

/-- `uuid.Parse`. -/
def parse (s : GoString) : Except UuidError UUID :=
  if s.length = 36 then parseDashed s
  else if s.length = 36 + 9 then
    if isASCII (s.take 9) ∧ asciiLower (s.take 9) = ascii "urn:uuid:" then parseDashed (s.drop 9)
    else .error .invalidUrnPrefix
  else if s.length = 36 + 2 then parseDashed (s.drop 1)
  else if s.length = 32 then uuidAt s bareOffsets rfl
  else .error (.invalidLength s.length)

/-- `UUID.String`: lower-case hex, dashes after the 4th, 6th, 8th and 10th byte. -/
def UUID.toGoString (u : UUID) : GoString :=
  let b := u.toList
  hexEncode false (b.take 4) ++ [0x2D] ++ hexEncode false ((b.drop 4).take 2) ++ [0x2D] ++
    hexEncode false ((b.drop 6).take 2) ++ [0x2D] ++ hexEncode false ((b.drop 8).take 2) ++
    [0x2D] ++ hexEncode false (b.drop 10)

/-! ## `Parse` reads back `String` -/

theorem xtob_hexDigit (upper : Bool) (b : UInt8) :
    xtob (hexDigit upper (b.toNat / 16)) (hexDigit upper (b.toNat % 16)) = some b := by
  have hb := toNat_lt_256 b
  simp only [xtob, fromHexChar_hexDigit upper _ (by omega : b.toNat / 16 < 16),
    fromHexChar_hexDigit upper _ (Nat.mod_lt _ (by omega)), ofNat_nibbles]

theorem uuidAt_of_xtobAt {s : GoString} {offsets : List Nat} {h : offsets.length = 16} {u : UUID}
    (e : xtobAt s offsets = some u.toList) : uuidAt s offsets h = .ok u := by
  unfold uuidAt
  split
  · rename_i vs hvs
    rw [hvs, Option.some.injEq] at e
    subst e; rfl
  · simp_all

theorem length_toGoString (u : UUID) : u.toGoString.length = 36 := by
  simp [UUID.toGoString, length_hexEncode, u.length_eq]

/-- The canonical string of a UUID parses back to it. -/
theorem parse_toGoString (u : UUID) : parse u.toGoString = .ok u := by
  rw [parse, if_pos (length_toGoString u)]
  obtain ⟨l, hl⟩ := u
  iterate 16 (rcases l with _ | ⟨_, l⟩; · simp at hl)
  rcases l with _ | ⟨_, l⟩
  · dsimp only [UUID.toGoString, hexEncode, List.take, List.drop, List.cons_append, List.nil_append,
      parseDashed, List.getD_cons_succ, List.getD_cons_zero]
    rw [if_neg (by simp)]
    exact uuidAt_of_xtobAt (by
      simp only [xtobAt, canonicalOffsets, List.getD_cons_succ, List.getD_cons_zero, xtob_hexDigit])
  · simp at hl

end UbirchClient.Go
