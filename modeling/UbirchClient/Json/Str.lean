import UbirchClient.Json.Scanner
import UbirchClient.Go.Encoding
import UbirchClient.Go.Utf8
set_option autoImplicit false

/-!
# JSON strings: `unquote` and the encoder's escaping

WHAT THIS FILE IS FOR.  A string literal reaches a decoded value through
`unquoteBytes` of `encoding/json` and leaves it through `encodeState.string`.  The
decoder never fails on a body the scanner accepted, and it always produces valid
UTF-8: a byte that does not start a well-formed sequence becomes `U+FFFD`, and so
does a `\u` escape of a surrogate that is not followed by the escape of its partner.
A decoded string is therefore a list of `Rune`s, and the encoder writes each rune:
`"` and `\` escaped, `\n` `\r` `\t` by letter, other bytes below `0x20` as `\u00XX`
(lower-case hex), `U+2028` and `U+2029` always as `\u2028` and `\u2029`, and, when
`escapeHTML` is set (as it is in `json.Marshal`), `<` `>` `&` as `\u003c`
`\u003e` `\u0026`; every other rune is copied as its UTF-8 bytes.

THE FACTS PROVED HERE.  `unquote_quoteBody`: the decoder reads the encoder's output
back to the same runes, with or without HTML escaping.  `validStr_quoteBody`: that
output is a body the scanner accepts.  `unquote_isSome`: on every body the scanner
accepts, `unquote` succeeds, so the decoder's `phasePanicMsg` branch is unreachable.

The encoder is given on runes because every string it meets here was decoded by
`unquote`; Go's byte loop, which also replaces ill-formed UTF-8 by `\ufffd`, does the
same on such strings (`decodeRune_encodeRune`).
-/

namespace UbirchClient.Json

open UbirchClient.Go

/-! ## Decoding -/

/-- Four hex digits: their value and what follows them. -/
def hex4 : GoString → Option (Nat × GoString)
  | h1 :: h2 :: h3 :: h4 :: s =>
    match fromHexChar h1, fromHexChar h2, fromHexChar h3, fromHexChar h4 with
    | some a, some b, some c, some d => some (4096 * a + 256 * b + 16 * c + d, s)
    | _, _, _, _ => none
  | _ => none

/-- `getu4`: the value of a `\uXXXX` escape at the front of `s`, and what follows it. -/
def getu4 (s : GoString) : Option (Nat × GoString) :=
  if s.take 2 = [0x5C, 0x75] then hex4 (s.drop 2) else none

/-- `utf16.DecodeRune`: a high surrogate and a low one make one rune. -/
def decodeSurrogates (r1 r2 : Nat) : Option Rune :=
  if 0xD800 ≤ r1 ∧ r1 < 0xDC00 ∧ 0xDC00 ≤ r2 ∧ r2 < 0xE000 then
    some (Rune.ofNat (0x10000 + (r1 - 0xD800) * 0x400 + (r2 - 0xDC00)))
  else none

/-- The rune of a `\u` escape of value `rr` followed by `s`, and where reading goes on:
a surrogate takes the next `\uXXXX` when the two form a pair, and otherwise stands
alone as `U+FFFD`. -/
def unicodeEscape (rr : Nat) (s : GoString) : Rune × GoString :=
  if 0xD800 ≤ rr ∧ rr < 0xE000 then
    match getu4 s with
    | some p =>
      match decodeSurrogates rr p.1 with
      | some r => (r, p.2)
      | none => (runeError, s)
    | none => (runeError, s)
  else (Rune.ofNat rr, s)

/-- The byte a one-letter escape stands for (`unquoteBytes` also takes `\'`). -/
def escapeValue (e : UInt8) : Option UInt8 :=
  if e = 0x22 ∨ e = 0x5C ∨ e = 0x2F ∨ e = 0x27 then some e
  else if e = 0x62 then some 0x08
  else if e = 0x66 then some 0x0C
  else if e = 0x6E then some 0x0A
  else if e = 0x72 then some 0x0D
  else if e = 0x74 then some 0x09
  else none

/-- One turn of `unquoteBytes`'s loop: the next rune of the body and the rest. -/
def unquoteStep : GoString → Option (Rune × GoString)
  | [] => none
  | c :: s =>
    if c = 0x5C then
      match s with
      | [] => none
      | e :: s' =>
        match escapeValue e with
        | some b => some (Rune.ofNat b.toNat, s')
        | none => if e = 0x75 then (hex4 s').map fun p => unicodeEscape p.1 p.2 else none
    else if c = 0x22 ∨ c < 0x20 then none
    else if c < 0x80 then some (Rune.ofNat c.toNat, s)
    else some ((decodeRune (c :: s)).1, (c :: s).drop (decodeRune (c :: s)).2)

/-- The loop of `unquoteBytes`, one rune per unit of fuel. -/
def unquoteGo : Nat → GoString → Option (List Rune)
  | _, [] => some []
  | 0, _ :: _ => none
  | fuel + 1, c :: s =>
    match unquoteStep (c :: s) with
    | some p => (unquoteGo fuel p.2).map (p.1 :: ·)
    | none => none

/-- `unquoteBytes` on the body of a string literal: every turn reads at least one
byte, so the body's length is fuel enough. -/
def unquote (s : GoString) : Option (List Rune) := unquoteGo s.length s

/-! ## Encoding -/

/-- `encodeState.string` on one rune. -/
def quoteRune (escapeHTML : Bool) (r : Rune) : GoString :=
  if r.val < 0x80 then
    if 0x20 ≤ r.val ∧ r.val ≠ 0x22 ∧ r.val ≠ 0x5C ∧
        ¬ (escapeHTML = true ∧ (r.val = 0x3C ∨ r.val = 0x3E ∨ r.val = 0x26)) then
      [UInt8.ofNat r.val]
    else if r.val = 0x22 ∨ r.val = 0x5C then [0x5C, UInt8.ofNat r.val]
    else if r.val = 0x0A then [0x5C, 0x6E]
    else if r.val = 0x0D then [0x5C, 0x72]
    else if r.val = 0x09 then [0x5C, 0x74]
    else [0x5C, 0x75, 0x30, 0x30, hexDigit false (r.val / 16), hexDigit false (r.val % 16)]
  else if r.val = 0x2028 ∨ r.val = 0x2029 then
    [0x5C, 0x75, 0x32, 0x30, 0x32, hexDigit false (r.val % 16)]
  else encodeRune r

/-- The body the encoder writes between the quotes of a string. -/
def quoteBody (escapeHTML : Bool) (s : List Rune) : GoString := s.flatMap (quoteRune escapeHTML)

/-! ## The decoder reads the encoder's output back -/

theorem fromHexChar_zero : fromHexChar 0x30 = some 0 := by decide

theorem fromHexChar_two : fromHexChar 0x32 = some 2 := by decide

theorem hex4_control (v : Nat) (hv : v < 256) (s : GoString) :
    hex4 (0x30 :: 0x30 :: hexDigit false (v / 16) :: hexDigit false (v % 16) :: s) = some (v, s) := by
  simp [hex4, fromHexChar_zero, fromHexChar_hexDigit false (v / 16) (by omega),
    fromHexChar_hexDigit false (v % 16) (by omega)]
  omega

theorem hex4_separator (v : Nat) (s : GoString) :
    hex4 (0x32 :: 0x30 :: 0x32 :: hexDigit false (v % 16) :: s) = some (0x2020 + v % 16, s) := by
  simp [hex4, fromHexChar_zero, fromHexChar_two, fromHexChar_hexDigit false (v % 16) (by omega)]

theorem unicodeEscape_of_lt {rr : Nat} (h : rr < 0xD800) (s : GoString) :
    unicodeEscape rr s = (Rune.ofNat rr, s) := by
  simp [unicodeEscape, show ¬ 0xD800 ≤ rr by omega]

theorem ofNat_ne_of_toNat {v : Nat} (hv : v < 256) {c : UInt8} (h : v ≠ c.toNat) :
    UInt8.ofNat v ≠ c := by
  intro e; rw [← e, toNat_ofNat hv] at h; exact h rfl

/-- One rune of the encoder's output decodes to that rune, whatever follows. -/
theorem unquoteStep_quoteRune (esc : Bool) (r : Rune) (rest : GoString) :
    unquoteStep (quoteRune esc r ++ rest) = some (r, rest) := by
  have hr : Rune.ofNat r.val = r := Rune.ofNat_val r
  unfold quoteRune
  split_ifs with h1 h2 h3 h4 h5 h6 h7
  · -- an ASCII byte copied as it is
    have hb : (UInt8.ofNat r.val).toNat = r.val := toNat_ofNat (by omega)
    have : UInt8.ofNat r.val ≠ 0x5C := ofNat_ne_of_toNat (by omega) (by simp; omega)
    have : UInt8.ofNat r.val ≠ 0x22 := ofNat_ne_of_toNat (by omega) (by simp; omega)
    have : ¬ UInt8.ofNat r.val < 0x20 := by rw [lt_iff_toNat_lt, hb]; simp; omega
    have : UInt8.ofNat r.val < 0x80 := by rw [lt_iff_toNat_lt, hb]; simpa using h1
    simp [unquoteStep, *]
  · -- `"` and `\`
    have hb : (UInt8.ofNat r.val).toNat = r.val := toNat_ofNat (by omega)
    have hev : escapeValue (UInt8.ofNat r.val) = some (UInt8.ofNat r.val) := by
      rcases h3 with h | h <;> simp [escapeValue, eq_iff_toNat_eq, hb, h]
    simp [unquoteStep, hev, hb, hr]
  · have : r = Rune.ofNat 0x0A := by rw [← h4, hr]
    subst this; rfl
  · have : r = Rune.ofNat 0x0D := by rw [← h5, hr]
    subst this; rfl
  · have : r = Rune.ofNat 0x09 := by rw [← h6, hr]
    subst this; rfl
  · -- a control byte as `\u00XX`
    simp [unquoteStep, escapeValue, hex4_control r.val (by omega),
      unicodeEscape_of_lt (show r.val < 0xD800 by omega), hr]
  · -- `U+2028` and `U+2029`
    have hv : 0x2020 + r.val % 16 = r.val := by omega
    simp [unquoteStep, escapeValue, hex4_separator, hv, unicodeEscape_of_lt (show r.val < 0xD800 by omega), hr]
  · -- every other rune as its UTF-8 bytes
    obtain ⟨c, cs, hc⟩ : ∃ c cs, encodeRune r = c :: cs := by
      cases h : encodeRune r with
      | nil => exact absurd h (encodeRune_ne_nil r)
      | cons c cs => exact ⟨c, cs, rfl⟩
    have hge : 128 ≤ c.toNat := by
      have := @encodeRune_bytes_ge r (by omega) c (by rw [hc]; simp)
      simpa [le_iff_toNat_le] using this
    have : c ≠ 0x5C := fun e => by subst e; simp at hge
    have : c ≠ 0x22 := fun e => by subst e; simp at hge
    have : ¬ c < 0x20 := by rw [lt_iff_toNat_lt]; simp; omega
    have : ¬ c < 0x80 := by rw [lt_iff_toNat_lt]; simp; omega
    have hd := decodeRune_encodeRune r rest
    rw [hc] at hd ⊢
    simp only [List.cons_append] at hd ⊢
    simp [unquoteStep, *, List.drop_append_eq_append_drop]

theorem quoteRune_ne_nil (esc : Bool) (r : Rune) : quoteRune esc r ≠ [] := by
  unfold quoteRune
  split_ifs <;> first | exact encodeRune_ne_nil r | simp

theorem quoteBody_cons (esc : Bool) (r : Rune) (s : List Rune) :
    quoteBody esc (r :: s) = quoteRune esc r ++ quoteBody esc s := by
  simp [quoteBody]

theorem unquoteGo_quoteBody (esc : Bool) (s : List Rune) (fuel : Nat)
    (h : (quoteBody esc s).length ≤ fuel) : unquoteGo fuel (quoteBody esc s) = some s := by
  induction s generalizing fuel with
  | nil => cases fuel <;> rfl
  | cons r s ih =>
    obtain ⟨c, cs, hc⟩ : ∃ c cs, quoteRune esc r = c :: cs := by
      cases h : quoteRune esc r with
      | nil => exact absurd h (quoteRune_ne_nil esc r)
      | cons c cs => exact ⟨c, cs, rfl⟩
    have hstep := unquoteStep_quoteRune esc r (quoteBody esc s)
    rw [quoteBody_cons] at h ⊢
    rw [hc] at h hstep ⊢
    simp only [List.length_append, List.length_cons] at h
    obtain ⟨fuel, rfl⟩ : ∃ f, fuel = f + 1 := ⟨fuel - 1, by omega⟩
    rw [List.cons_append, unquoteGo, ← List.cons_append, hstep]
    simp [ih fuel (by omega)]

/-- The decoder reads the encoder's output back to the same runes. -/
theorem unquote_quoteBody (esc : Bool) (s : List Rune) :
    unquote (quoteBody esc s) = some s :=
  unquoteGo_quoteBody esc s _ le_rfl

/-! ## The encoder's output is a string the scanner accepts -/

theorem isHexDigit_hexDigit : ∀ n, n < 16 → isHexDigit (hexDigit false n) = true := by decide

theorem isHexDigit_zero : isHexDigit 0x30 = true := by decide

theorem isHexDigit_two : isHexDigit 0x32 = true := by decide

/-- Bytes from `0x80` up are ordinary string bytes for the scanner. -/
theorem validFrom_high (xs : GoString) (h : ∀ b ∈ xs, 0x80 ≤ b.toNat) (rest : GoString) :
    validFrom .body (xs ++ rest) = validFrom .body rest := by
  induction xs with
  | nil => rfl
  | cons b xs ih =>
    have hb := h b (List.mem_cons_self _ _)
    have : b ≠ 0x22 := fun e => by subst e; simp at hb
    have : b ≠ 0x5C := fun e => by subst e; simp at hb
    have : ¬ b < 0x20 := by rw [lt_iff_toNat_lt]; simp; omega
    simp [validFrom, strStep, *, ih fun b hb' => h b (List.mem_cons_of_mem _ hb')]

theorem validFrom_quoteRune (esc : Bool) (r : Rune) (rest : GoString) :
    validFrom .body (quoteRune esc r ++ rest) = validFrom .body rest := by
  unfold quoteRune
  split_ifs with h1 h2 h3 h4 h5 h6 h7
  · have hb : (UInt8.ofNat r.val).toNat = r.val := toNat_ofNat (by omega)
    have : UInt8.ofNat r.val ≠ 0x5C := ofNat_ne_of_toNat (by omega) (by simp; omega)
    have : UInt8.ofNat r.val ≠ 0x22 := ofNat_ne_of_toNat (by omega) (by simp; omega)
    have : ¬ UInt8.ofNat r.val < 0x20 := by rw [lt_iff_toNat_lt, hb]; simp; omega
    simp [validFrom, strStep, *]
  · have hb : (UInt8.ofNat r.val).toNat = r.val := toNat_ofNat (by omega)
    have : isSimpleEscape (UInt8.ofNat r.val) = true := by
      rcases h3 with h | h <;> simp [isSimpleEscape, eq_iff_toNat_eq, hb, h]
    simp [validFrom, strStep, *]
  · simp [validFrom, strStep, isSimpleEscape]
  · simp [validFrom, strStep, isSimpleEscape]
  · simp [validFrom, strStep, isSimpleEscape]
  · simp [validFrom, strStep, isSimpleEscape, isHexDigit_zero,
      isHexDigit_hexDigit (r.val / 16) (by omega), isHexDigit_hexDigit (r.val % 16) (by omega)]
  · simp [validFrom, strStep, isSimpleEscape, isHexDigit_zero, isHexDigit_two,
      isHexDigit_hexDigit (r.val % 16) (by omega)]
  · exact validFrom_high _ (fun b hb => by
      have := encodeRune_bytes_ge (by omega : 0x80 ≤ r.val) b hb
      simpa [le_iff_toNat_le] using this) rest

/-- The encoder writes string bodies the scanner accepts. -/
theorem validStr_quoteBody (esc : Bool) (s : List Rune) : validStr (quoteBody esc s) = true := by
  induction s with
  | nil => rfl
  | cons r s ih => rw [quoteBody_cons, validStr, validFrom_quoteRune]; exact ih

/-! ## The decoder never fails on what the scanner accepted -/

theorem escapeValue_of_simple {e : UInt8} (h : isSimpleEscape e = true) :
    ∃ b, escapeValue e = some b := by
  simp only [isSimpleEscape, Bool.or_eq_true, beq_iff_eq, or_assoc] at h
  rcases h with rfl | rfl | rfl | rfl | rfl | rfl | rfl | rfl <;> exact ⟨_, rfl⟩

theorem fromHexChar_of_isHexDigit {h : UInt8} (hh : isHexDigit h = true) :
    ∃ n, fromHexChar h = some n := by
  simp only [isHexDigit, Bool.or_eq_true, Bool.and_eq_true, decide_eq_true_eq] at hh
  unfold fromHexChar
  split_ifs <;> simp_all

theorem validFrom_nil_of_ne {st : StrState} (h : st ≠ .body) : validFrom st [] = false := by
  simp [validFrom, h]

/-- In a state that expects a hex digit, the body stays valid exactly when a digit
comes and the rest is valid from the next state. -/
theorem validFrom_hexDigit (st st' : StrState)
    (hst : ∀ h, strStep st h = if isHexDigit h then some st' else none) (hb : st ≠ .body)
    (h : UInt8) (s : GoString) : validFrom st (h :: s) = (isHexDigit h && validFrom st' s) := by
  simp only [validFrom, hst, hb, false_and, if_false]
  cases isHexDigit h <;> rfl

theorem hex4_of_valid {s : GoString} (h : validFrom .escU s = true) :
    ∃ rr s', hex4 s = some (rr, s') ∧ validFrom .body s' = true ∧ s'.length + 4 = s.length := by
  have e1 := validFrom_hexDigit .escU .escU1 (fun _ => rfl) (by decide)
  have e2 := validFrom_hexDigit .escU1 .escU12 (fun _ => rfl) (by decide)
  have e3 := validFrom_hexDigit .escU12 .escU123 (fun _ => rfl) (by decide)
  have e4 := validFrom_hexDigit .escU123 .body (fun _ => rfl) (by decide)
  rcases s with _ | ⟨h1, _ | ⟨h2, _ | ⟨h3, _ | ⟨h4, s'⟩⟩⟩⟩ <;>
    simp only [e1, e2, e3, e4, validFrom_nil_of_ne (show StrState.escU ≠ .body by decide),
      validFrom_nil_of_ne (show StrState.escU1 ≠ .body by decide),
      validFrom_nil_of_ne (show StrState.escU12 ≠ .body by decide),
      validFrom_nil_of_ne (show StrState.escU123 ≠ .body by decide), Bool.and_eq_true,
      Bool.and_false, Bool.false_eq_true] at h
  obtain ⟨a, b, c, d, hs⟩ := h
  obtain ⟨x1, f1⟩ := fromHexChar_of_isHexDigit a
  obtain ⟨x2, f2⟩ := fromHexChar_of_isHexDigit b
  obtain ⟨x3, f3⟩ := fromHexChar_of_isHexDigit c
  obtain ⟨x4, f4⟩ := fromHexChar_of_isHexDigit d
  exact ⟨4096 * x1 + 256 * x2 + 16 * x3 + x4, s', by simp [hex4, f1, f2, f3, f4], hs, by simp⟩

theorem validFrom_backslash_u (rest : GoString) :
    validFrom .body (0x5C :: 0x75 :: rest) = validFrom .escU rest := by
  simp [validFrom, strStep, isSimpleEscape]

theorem getu4_valid {s : GoString} {p : Nat × GoString} (hv : validFrom .body s = true)
    (hg : getu4 s = some p) : validFrom .body p.2 = true ∧ p.2.length ≤ s.length := by
  rcases s with _ | ⟨a, _ | ⟨b, rest⟩⟩ <;> simp [getu4] at hg
  obtain ⟨⟨rfl, rfl⟩, hx⟩ := hg
  rw [validFrom_backslash_u] at hv
  obtain ⟨rr, s', h4, hs', hl⟩ := hex4_of_valid hv
  rw [h4] at hx
  cases hx
  exact ⟨hs', by simp; omega⟩

theorem unicodeEscape_valid (rr : Nat) {s : GoString} (hv : validFrom .body s = true) :
    validFrom .body (unicodeEscape rr s).2 = true ∧ (unicodeEscape rr s).2.length ≤ s.length := by
  unfold unicodeEscape
  split_ifs
  · split
    · rename_i p hp
      split
      · exact getu4_valid hv hp
      · exact ⟨hv, le_rfl⟩
    · exact ⟨hv, le_rfl⟩
  · exact ⟨hv, le_rfl⟩

/-- On a body the scanner accepts, one turn of the loop reads a rune and leaves a
shorter body the scanner accepts. -/
theorem unquoteStep_valid {c : UInt8} {s : GoString} (h : validFrom .body (c :: s) = true) :
    ∃ r s', unquoteStep (c :: s) = some (r, s') ∧ s'.length ≤ s.length ∧
      validFrom .body s' = true := by
  by_cases hq : c = 0x22
  · simp [validFrom, hq] at h
  by_cases hb : c = 0x5C
  · subst hb
    rcases s with _ | ⟨e, s1⟩
    · simp [validFrom, strStep] at h
    by_cases he : isSimpleEscape e = true
    · obtain ⟨b, hb⟩ := escapeValue_of_simple he
      simp [validFrom, strStep, he] at h
      exact ⟨Rune.ofNat b.toNat, s1, by simp [unquoteStep, hb], by simp, h⟩
    by_cases hu : e = 0x75
    · subst hu
      rw [validFrom_backslash_u] at h
      obtain ⟨rr, s2, hx, hv, hl⟩ := hex4_of_valid h
      obtain ⟨hv', hl'⟩ := unicodeEscape_valid rr hv
      exact ⟨(unicodeEscape rr s2).1, (unicodeEscape rr s2).2,
        by simp [unquoteStep, hx, show escapeValue 0x75 = none by decide], by simp; omega, hv'⟩
    · simp [validFrom, strStep, he, hu] at h
  by_cases hc : c < 0x20
  · simp [validFrom, strStep, hq, hb, hc] at h
  have hs : validFrom .body s = true := by simpa [validFrom, strStep, hq, hb, hc] using h
  by_cases ha : c < 0x80
  · exact ⟨Rune.ofNat c.toNat, s, by simp [unquoteStep, hq, hb, hc, ha], le_rfl, hs⟩
  · have h80 : 0x80 ≤ c.toNat := by rw [lt_iff_toNat_lt] at ha; simpa using ha
    obtain ⟨h1, hpre⟩ := decodeRune_prefix c s h80
    refine ⟨(decodeRune (c :: s)).1, (c :: s).drop (decodeRune (c :: s)).2,
      by simp [unquoteStep, hq, hb, hc, ha], by simp only [List.length_drop, List.length_cons]; omega, ?_⟩
    rw [← List.take_append_drop (decodeRune (c :: s)).2 (c :: s)] at h
    rwa [validFrom_high _ hpre] at h

theorem unquoteGo_valid (fuel : Nat) {s : GoString} (h : validFrom .body s = true)
    (hf : s.length ≤ fuel) : ∃ rs, unquoteGo fuel s = some rs := by
  induction fuel generalizing s with
  | zero =>
    rcases s with _ | ⟨c, s⟩
    · exact ⟨[], rfl⟩
    · simp at hf
  | succ fuel ih =>
    rcases s with _ | ⟨c, s⟩
    · exact ⟨[], rfl⟩
    obtain ⟨r, s', hstep, hl, hv⟩ := unquoteStep_valid h
    obtain ⟨rs, hrs⟩ := ih hv (by simp at hf; omega)
    exact ⟨r :: rs, by simp [unquoteGo, hstep, hrs]⟩

/-- `unquote` succeeds on every string body the scanner accepts. -/
theorem unquote_isSome {s : GoString} (h : validStr s = true) : ∃ rs, unquote s = some rs :=
  unquoteGo_valid _ h le_rfl

/-! ## HTML escaping -/

/-- Away from `<`, `>` and `&`, the two encoders write the same bytes. -/
theorem quoteRune_escapeHTML {r : Rune} (h : r.val ≠ 0x3C ∧ r.val ≠ 0x3E ∧ r.val ≠ 0x26) :
    quoteRune true r = quoteRune false r := by
  simp [quoteRune, h.1, h.2.1, h.2.2]

theorem quoteBody_escapeHTML {s : List Rune}
    (h : ∀ r ∈ s, r.val ≠ 0x3C ∧ r.val ≠ 0x3E ∧ r.val ≠ 0x26) :
    quoteBody true s = quoteBody false s := by
  induction s with
  | nil => rfl
  | cons r s ih =>
    rw [quoteBody_cons, quoteBody_cons, quoteRune_escapeHTML (h r (List.mem_cons_self _ _)),
      ih fun r' hr' => h r' (List.mem_cons_of_mem _ hr')]

end UbirchClient.Json
