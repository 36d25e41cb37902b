import UbirchClient.Json.Number
set_option autoImplicit false

/-!
# JSON text: the concrete syntax tree, its bytes, and the scanner

WHAT THIS FILE IS FOR.  `json.Unmarshal` first runs the scanner of
`encoding/json` over the whole input (`checkValid`) and only then builds a value;
`json.Compact` runs the same scanner and drops the whitespace it skips.  Both
therefore see a JSON text through one grammar, which this file gives twice:

* as a concrete syntax tree `Syn` that keeps every byte of the text (the
  whitespace between tokens, each string exactly as escaped, each number exactly as
  spelled) together with `Syn.render`, its bytes; a JSON text is `ws ++ render t ++ ws`
  for a tree whose slots hold what the scanner admits (`Syn.WF`);
* as a total parser `parseText` (recursive descent with explicit fuel) that follows
  the scanner's state machine: whitespace is `' '`, `\t`, `\n`, `\r`; a string byte
  below `0x20` is rejected, any other byte is kept as it is (the scanner does not
  check UTF-8); an escape is one of `\" \\ \/ \b \f \n \r \t` or `\u` with four hex
  digits; a number is `-? (0 | [1-9][0-9]*) (.[0-9]+)? ([eE][+-]?[0-9]+)?`;
  nesting deeper than `maxNestingDepth = 10000` containers is an error (the limit
  of Go 1.15 and later).

THE PROPERTY PROVED HERE.  `parseText_render`: the parser accepts the bytes of
every well-formed tree nested at most 10000 deep, and returns that very tree, with
the whitespace around it.  Stated, as decoder completeness usually is, for a value
followed by an arbitrary delimited suffix, so that it composes through arrays and
objects.

DEVIATION DISCLOSED.  The scanner's error messages (`invalid character 'x' looking
for beginning of value` and the like) and their offsets are not modelled: an error
is only `invalid` or `maxDepth`, and no result below depends on which.
-/

namespace UbirchClient.Json

open UbirchClient.Go

/-! ## Whitespace -/

/-- `isSpace` of the scanner. -/
def isSpace (b : UInt8) : Bool := b == 0x20 || b == 0x09 || b == 0x0A || b == 0x0D

/-- Whitespace as spelled between two tokens. -/
abbrev Ws := GoString

/-- The whitespace at the front of `s`, and what follows it. -/
def takeSpace : GoString → Ws × GoString
  | [] => ([], [])
  | b :: s => if isSpace b then ((takeSpace s).1.cons b, (takeSpace s).2) else ([], b :: s)

/-- A byte that may follow a value: whitespace, `,`, `]` or `}`. -/
def isDelim (b : UInt8) : Bool := isSpace b || b == 0x2C || b == 0x5D || b == 0x7D

/-- What may follow a value in a text: nothing, or a delimiter. -/
def Delimited (s : GoString) : Prop := ∀ b r, s = b :: r → isDelim b = true

/-! ## The syntax tree -/

/-- A JSON value as spelled.  An array element carries the whitespace before and
after it; an object member is `ws "key" ws : ws value ws`.  A non-empty container is
its first element and the rest, so an empty one is a separate constructor with the
whitespace between its brackets. -/
inductive Syn where
  | null
  | bool (b : Bool)
  | num (n : NumLit)
  /-- the bytes between the quotes, escapes as written -/
  | str (raw : GoString)
  /-- `[ws]` -/
  | arr0 (ws : Ws)
  | arr (first : Ws × Syn × Ws) (rest : List (Ws × Syn × Ws))
  /-- `{ws}` -/
  | obj0 (ws : Ws)
  | obj (first : Ws × GoString × Ws × (Ws × Syn × Ws))
      (rest : List (Ws × GoString × Ws × (Ws × Syn × Ws)))

/-- An array element, `ws value ws`. -/
abbrev Elem := Ws × Syn × Ws

/-- An object member, `ws "key" ws :` and an element. -/
abbrev Member := Ws × GoString × Ws × Elem

/-- The bytes of a quoted string. -/
def quoted (raw : GoString) : GoString := 0x22 :: raw ++ [0x22]

mutual
/-- The bytes of a value. -/
def Syn.render : Syn → GoString
  | .null => [0x6E, 0x75, 0x6C, 0x6C]
  | .bool true => [0x74, 0x72, 0x75, 0x65]
  | .bool false => [0x66, 0x61, 0x6C, 0x73, 0x65]
  | .num n => n.emit
  | .str raw => quoted raw
  | .arr0 w => 0x5B :: w ++ [0x5D]
  | .arr e es => 0x5B :: renderElem e ++ renderElems es ++ [0x5D]
  | .obj0 w => 0x7B :: w ++ [0x7D]
  | .obj m ms => 0x7B :: renderMember m ++ renderMembers ms ++ [0x7D]
/-- The bytes of an element. -/
def renderElem : Elem → GoString
  | (w, v, w') => w ++ v.render ++ w'
/-- The bytes of the elements after the first, each after a comma. -/
def renderElems : List Elem → GoString
  | [] => []
  | e :: es => 0x2C :: renderElem e ++ renderElems es
/-- The bytes of a member. -/
def renderMember : Member → GoString
  | (w0, k, w1, e) => w0 ++ quoted k ++ w1 ++ 0x3A :: renderElem e
/-- The bytes of the members after the first, each after a comma. -/
def renderMembers : List Member → GoString
  | [] => []
  | m :: ms => 0x2C :: renderMember m ++ renderMembers ms
end

/-! ## Strings and numbers, as the scanner reads them -/

/-- A simple escape letter: `" \ / b f n r t`. -/
def isSimpleEscape (c : UInt8) : Bool :=
  c == 0x22 || c == 0x5C || c == 0x2F || c == 0x62 || c == 0x66 || c == 0x6E || c == 0x72 ||
    c == 0x74

/-- `isHex` of the scanner. -/
def isHexDigit (c : UInt8) : Bool :=
  (0x30 ≤ c && c ≤ 0x39) || (0x61 ≤ c && c ≤ 0x66) || (0x41 ≤ c && c ≤ 0x46)

/-- The scanner's states inside a string: `stateInString`, `stateInStringEsc`, and
`stateInStringEscU`, `stateInStringEscU1`, `stateInStringEscU12`,
`stateInStringEscU123`, with four, three, two and one hex digits still to come. -/
inductive StrState where
  | body
  | esc
  | escU
  | escU1
  | escU12
  | escU123
  deriving DecidableEq, Repr

/-- The state after one byte inside a string, or `none` when the scanner rejects it;
the closing quote is handled by the caller. -/
def strStep : StrState → UInt8 → Option StrState
  | .body, b => if b = 0x5C then some .esc else if b < 0x20 then none else some .body
  | .esc, c => if isSimpleEscape c then some .body else if c = 0x75 then some .escU else none
  | .escU, h => if isHexDigit h then some .escU1 else none
  | .escU1, h => if isHexDigit h then some .escU12 else none
  | .escU12, h => if isHexDigit h then some .escU123 else none
  | .escU123, h => if isHexDigit h then some .body else none

/-- The string states from `st`: the body up to the closing quote, and what follows
it; `none` when a byte is rejected or the input ends first. -/
def scanStr : StrState → GoString → Option (GoString × GoString)
  | _, [] => none
  | st, b :: s =>
    if st = .body ∧ b = 0x22 then some ([], s)
    else
      match strStep st b with
      | some st' => (scanStr st' s).map fun r => (b :: r.1, r.2)
      | none => none

/-- A string literal after its opening quote. -/
def scanString (s : GoString) : Option (GoString × GoString) := scanStr .body s

/-- The body of a string the scanner accepts, from state `st`: no unescaped quote,
and the input may end only in the body state. -/
def validFrom : StrState → GoString → Bool
  | st, [] => st = .body
  | st, b :: s =>
    if st = .body ∧ b = 0x22 then false
    else
      match strStep st b with
      | some st' => validFrom st' s
      | none => false

/-- A string body the scanner accepts. -/
def validStr (raw : GoString) : Bool := validFrom .body raw

/-- The digit of an ASCII byte `0`-`9`. -/
def digitOf (b : UInt8) : Option Digit :=
  if h : 0x30 ≤ b.toNat ∧ b.toNat ≤ 0x39 then some ⟨b.toNat - 0x30, by omega⟩ else none

/-- The digits at the front of `s`, and what follows them. -/
def takeDigits : GoString → List Digit × GoString
  | [] => ([], [])
  | b :: s =>
    match digitOf b with
    | some d => ((takeDigits s).1.cons d, (takeDigits s).2)
    | none => ([], b :: s)

/-- The integer part: `0`, or a non-zero digit and the digits after it. -/
def scanInt : GoString → Option (IntDigits × GoString)
  | [] => none
  | b :: s =>
    match digitOf b with
    | some d =>
      if hd : d = 0 then some (⟨[0], .inl rfl⟩, s)
      else some (⟨d :: (takeDigits s).1, .inr ⟨d, _, rfl, hd⟩⟩, (takeDigits s).2)
    | none => none

/-- The fraction: nothing, or `.` and at least one digit. -/
def scanFrac (s : GoString) : Option (List Digit × GoString) :=
  if s.head? = some 0x2E then
    if (takeDigits s.tail).1 = [] then none else some (takeDigits s.tail)
  else some ([], s)

/-- The sign of an exponent. -/
def scanExpSign (s : GoString) : ExpSign × GoString :=
  if s.head? = some 0x2B then (.plus, s.tail)
  else if s.head? = some 0x2D then (.minus, s.tail)
  else (.none, s)

/-- The exponent: nothing, or `e`/`E`, a sign, and at least one digit. -/
def scanExp : GoString → Option (Option ExpPart × GoString)
  | b :: s =>
    if b = 0x65 ∨ b = 0x45 then
      let sg := scanExpSign s
      if h : (takeDigits sg.2).1 = [] then none
      else some (some ⟨b = 0x45, sg.1, (takeDigits sg.2).1, h⟩, (takeDigits sg.2).2)
    else some (none, b :: s)
  | [] => some (none, [])

/-- The number states of the scanner, from `-` to the last exponent digit. -/
def scanNumber (s : GoString) : Option (NumLit × GoString) :=
  let neg := s.head? = some 0x2D
  let s1 := if neg then s.tail else s
  (scanInt s1).bind fun i =>
    (scanFrac i.2).bind fun f =>
      (scanExp f.2).map fun e => (⟨neg, i.1, f.1, e.1⟩, e.2)

/-! ## The parser -/

/-- `maxNestingDepth` of the scanner. -/
def maxNestingDepth : Nat := 10000

/-- Why the scanner rejected its input. -/
inductive SyntaxError where
  /-- an unexpected byte, or the end of the input in the middle of a value -/
  | invalid
  /-- `exceeded max depth`: more than `maxNestingDepth` open containers -/
  | maxDepth
  deriving DecidableEq, Repr

/-- The bytes after the literal `lit` at the front of `s`. -/
def dropLit : GoString → GoString → Option GoString
  | [], s => some s
  | _ :: _, [] => none
  | c :: lit, b :: s => if b = c then dropLit lit s else none

/-- A scalar value, `lit` read, as `parseValue` returns it. -/
def litValue (t : Syn) (lit s : GoString) : Except SyntaxError (Syn × GoString) :=
  match dropLit lit s with
  | some r => .ok (t, r)
  | none => .error .invalid

mutual
/-- A value at the front of `s`, which starts at the value's first byte; `depth`
containers are open around it.  Each call spends one unit of `fuel`. -/
def parseValue : Nat → Nat → GoString → Except SyntaxError (Syn × GoString)
  | 0, _, _ => .error .invalid
  | _ + 1, _, [] => .error .invalid
  | fuel + 1, depth, b :: r =>
    if b = 0x6E then litValue .null [0x75, 0x6C, 0x6C] r
    else if b = 0x74 then litValue (.bool true) [0x72, 0x75, 0x65] r
    else if b = 0x66 then litValue (.bool false) [0x61, 0x6C, 0x73, 0x65] r
    else if b = 0x22 then
      match scanString r with
      | some p => .ok (.str p.1, p.2)
      | none => .error .invalid
    else if b = 0x5B then
      if maxNestingDepth < depth + 1 then .error .maxDepth
      else if (takeSpace r).2.head? = some 0x5D then .ok (.arr0 (takeSpace r).1, (takeSpace r).2.tail)
      else
        match parseElems fuel (depth + 1) r with
        | .ok p => .ok (.arr p.1 p.2.1, p.2.2)
        | .error err => .error err
    else if b = 0x7B then
      if maxNestingDepth < depth + 1 then .error .maxDepth
      else if (takeSpace r).2.head? = some 0x7D then .ok (.obj0 (takeSpace r).1, (takeSpace r).2.tail)
      else
        match parseMembers fuel (depth + 1) r with
        | .ok p => .ok (.obj p.1 p.2.1, p.2.2)
        | .error err => .error err
    else
      match scanNumber (b :: r) with
      | some p => .ok (.num p.1, p.2)
      | none => .error .invalid
termination_by structural fuel => fuel
/-- `ws value ws` at the front of `s`. -/
def parseElem : Nat → Nat → GoString → Except SyntaxError (Elem × GoString)
  | 0, _, _ => .error .invalid
  | fuel + 1, depth, s =>
    match parseValue fuel depth (takeSpace s).2 with
    | .ok p => .ok (((takeSpace s).1, p.1, (takeSpace p.2).1), (takeSpace p.2).2)
    | .error err => .error err
termination_by structural fuel => fuel
/-- The elements of an array, from the first one to the closing `]`. -/
def parseElems : Nat → Nat → GoString → Except SyntaxError (Elem × List Elem × GoString)
  | 0, _, _ => .error .invalid
  | fuel + 1, depth, s =>
    match parseElem fuel depth s with
    | .error err => .error err
    | .ok p =>
      if p.2.head? = some 0x5D then .ok (p.1, [], p.2.tail)
      else if p.2.head? = some 0x2C then
        match parseElems fuel depth p.2.tail with
        | .ok q => .ok (p.1, q.1 :: q.2.1, q.2.2)
        | .error err => .error err
      else .error .invalid
termination_by structural fuel => fuel
/-- The members of an object, from the first one to the closing `}`. -/
def parseMembers : Nat → Nat → GoString → Except SyntaxError (Member × List Member × GoString)
  | 0, _, _ => .error .invalid
  | fuel + 1, depth, s =>
    if (takeSpace s).2.head? = some 0x22 then
      match scanString (takeSpace s).2.tail with
      | none => .error .invalid
      | some k =>
        if (takeSpace k.2).2.head? = some 0x3A then
          match parseElem fuel depth (takeSpace k.2).2.tail with
          | .error err => .error err
          | .ok p =>
            let m : Member := ((takeSpace s).1, k.1, (takeSpace k.2).1, p.1)
            if p.2.head? = some 0x7D then .ok (m, [], p.2.tail)
            else if p.2.head? = some 0x2C then
              match parseMembers fuel depth p.2.tail with
              | .ok q => .ok (m, q.1 :: q.2.1, q.2.2)
              | .error err => .error err
            else .error .invalid
        else .error .invalid
    else .error .invalid
termination_by structural fuel => fuel
end

/-- `checkValid`: a whole text, `ws value ws`.  At most two nested calls of the
descent start at the same byte, so twice the length is fuel enough. -/
def parseText (d : GoString) : Except SyntaxError (Ws × Syn × Ws) :=
  match parseValue (2 * d.length + 1) 0 (takeSpace d).2 with
  | .error err => .error err
  | .ok (t, r) =>
    if (takeSpace r).2 = [] then .ok ((takeSpace d).1, t, (takeSpace r).1) else .error .invalid

/-! ## Well-formed trees -/

/-- Every byte is whitespace. -/
def allSpace (w : Ws) : Bool := w.all isSpace

mutual
/-- The slots of a tree hold what the scanner admits: whitespace in the whitespace
slots, and string bodies the string states accept. -/
def Syn.WF : Syn → Bool
  | .str raw => validStr raw
  | .arr0 w => allSpace w
  | .arr e es => elemWF e && elemsWF es
  | .obj0 w => allSpace w
  | .obj m ms => memberWF m && membersWF ms
  | _ => true
/-- `Syn.WF` of an element. -/
def elemWF : Elem → Bool
  | (w, v, w') => allSpace w && v.WF && allSpace w'
/-- `Syn.WF` of elements. -/
def elemsWF : List Elem → Bool
  | [] => true
  | e :: es => elemWF e && elemsWF es
/-- `Syn.WF` of a member. -/
def memberWF : Member → Bool
  | (w0, k, w1, e) => allSpace w0 && validStr k && allSpace w1 && elemWF e
/-- `Syn.WF` of members. -/
def membersWF : List Member → Bool
  | [] => true
  | m :: ms => memberWF m && membersWF ms
end

mutual
/-- The number of containers open at the deepest point of a tree. -/
def Syn.depth : Syn → Nat
  | .arr0 _ => 1
  | .arr e es => max (elemDepth e) (elemsDepth es) + 1
  | .obj0 _ => 1
  | .obj m ms => max (memberDepth m) (membersDepth ms) + 1
  | _ => 0
/-- `Syn.depth` of an element. -/
def elemDepth : Elem → Nat
  | (_, v, _) => v.depth
/-- `Syn.depth` of elements. -/
def elemsDepth : List Elem → Nat
  | [] => 0
  | e :: es => max (elemDepth e) (elemsDepth es)
/-- `Syn.depth` of a member. -/
def memberDepth : Member → Nat
  | (_, _, _, e) => elemDepth e
/-- `Syn.depth` of members. -/
def membersDepth : List Member → Nat
  | [] => 0
  | m :: ms => max (memberDepth m) (membersDepth ms)
end

/-! ## The scanners accept what they should -/

/-- A byte that can start a value: `n t f " [ {`, `-` or a digit. -/
def startsValue (b : UInt8) : Prop :=
  b = 0x6E ∨ b = 0x74 ∨ b = 0x66 ∨ b = 0x22 ∨ b = 0x5B ∨ b = 0x7B ∨ b = 0x2D ∨
    (0x30 ≤ b.toNat ∧ b.toNat ≤ 0x39)

theorem takeSpace_append {w : Ws} (hw : allSpace w = true) (r : GoString)
    (hr : ∀ b r', r = b :: r' → isSpace b = false) : takeSpace (w ++ r) = (w, r) := by
  induction w with
  | nil =>
    cases r with
    | nil => rfl
    | cons b r' => simp [takeSpace, hr b r' rfl]
  | cons b w ih =>
    simp only [allSpace, List.all_cons, Bool.and_eq_true] at hw
    simp [takeSpace, hw.1, ih hw.2]

theorem digitOf_digitByte (d : Digit) : digitOf (digitByte d) = some d := by
  have := d.isLt
  simp only [digitOf, digitByte, toNat_ofNat (show 0x30 + d.val < 256 by omega)]
  rw [dif_pos (by omega)]
  simp

theorem takeDigits_append (ds : List Digit) {r : GoString}
    (hr : ∀ b r', r = b :: r' → digitOf b = none) :
    takeDigits (ds.map digitByte ++ r) = (ds, r) := by
  induction ds with
  | nil =>
    cases r with
    | nil => rfl
    | cons b r' => simp [takeDigits, hr b r' rfl]
  | cons d ds ih => simp [takeDigits, digitOf_digitByte, ih]

/-- A body the string states accept is read up to its closing quote. -/
theorem scanStr_append {st : StrState} {raw : GoString} (h : validFrom st raw = true)
    (rest : GoString) : scanStr st (raw ++ 0x22 :: rest) = some (raw, rest) := by
  induction raw generalizing st with
  | nil =>
    simp only [validFrom, decide_eq_true_eq] at h
    simp [scanStr, h]
  | cons b s ih =>
    simp only [validFrom] at h
    split_ifs at h with hq
    split at h
    · rename_i st' hst
      simp [scanStr, hq, hst, ih h]
    · cases h

theorem scanString_append {raw : GoString} (h : validStr raw = true) (rest : GoString) :
    scanString (raw ++ 0x22 :: rest) = some (raw, rest) :=
  scanStr_append h rest

/-- What may follow the last digit of a number without extending it. -/
def NumStop (s : GoString) : Prop :=
  ∀ b r, s = b :: r → digitOf b = none ∧ b ≠ 0x2E ∧ b ≠ 0x65 ∧ b ≠ 0x45

theorem Delimited.numStop {s : GoString} (h : Delimited s) : NumStop s := by
  intro b r hs
  have hb := h b r hs
  simp only [isDelim, isSpace, Bool.or_eq_true, beq_iff_eq, or_assoc] at hb
  rcases hb with rfl | rfl | rfl | rfl | rfl | rfl | rfl <;> decide

theorem digitByte_toNat (d : Digit) : (digitByte d).toNat = 0x30 + d.val :=
  toNat_ofNat (by have := d.isLt; omega)

theorem digitByte_ne (d : Digit) :
    digitByte d ≠ 0x2D ∧ digitByte d ≠ 0x2E ∧ digitByte d ≠ 0x65 ∧ digitByte d ≠ 0x45 ∧
      digitByte d ≠ 0x2B := by
  have h := digitByte_toNat d
  have := d.isLt
  refine ⟨?_, ?_, ?_, ?_, ?_⟩ <;> intro e <;> rw [e] at h <;> simp at h <;> omega

theorem takeDigits_stop (ds : List Digit) {r : GoString} (hr : NumStop r) :
    takeDigits (ds.map digitByte ++ r) = (ds, r) :=
  takeDigits_append ds fun b r' e => (hr b r' e).1

theorem scanExp_append (e : Option ExpPart) {rest : GoString} (hr : NumStop rest) :
    scanExp ((e.map ExpPart.emit).getD [] ++ rest) = some (e, rest) := by
  cases e with
  | none =>
    cases rest with
    | nil => rfl
    | cons b r =>
      obtain ⟨-, -, h1, h2⟩ := hr b r rfl
      simp [scanExp, h1, h2]
  | some e =>
    obtain ⟨upper, sign, ds, hne⟩ := e
    have hsign : scanExpSign (sign.emit ++ (ds.map digitByte ++ rest)) =
        (sign, ds.map digitByte ++ rest) := by
      obtain ⟨d, ds', rfl⟩ := List.exists_cons_of_ne_nil hne
      obtain ⟨h1, -, -, -, h5⟩ := digitByte_ne d
      cases sign <;> simp [ExpSign.emit, scanExpSign, h1, h5]
    have hdig := takeDigits_stop ds hr
    cases upper <;>
      simp [ExpPart.emit, scanExp, List.append_assoc, hsign, hdig, hne]

/-- What may follow the exponent-free part of a number. -/
def FracStop (s : GoString) : Prop := ∀ b r, s = b :: r → digitOf b = none ∧ b ≠ 0x2E

theorem fracStop_exp (e : Option ExpPart) {rest : GoString} (hr : NumStop rest) :
    FracStop ((e.map ExpPart.emit).getD [] ++ rest) := by
  intro b r h
  cases e with
  | none => exact ⟨(hr b r h).1, (hr b r h).2.1⟩
  | some e =>
    simp only [Option.map_some', Option.getD_some, ExpPart.emit, List.cons_append,
      List.cons.injEq] at h
    rw [← h.1]
    cases e.upper <;> decide

theorem scanFrac_append (frac : List Digit) {X : GoString} (hX : FracStop X) :
    scanFrac ((if frac = [] then [] else 0x2E :: frac.map digitByte) ++ X) = some (frac, X) := by
  by_cases hf : frac = []
  · subst hf
    cases X with
    | nil => rfl
    | cons b r => simp [scanFrac, (hX b r rfl).2]
  · simp [scanFrac, hf, takeDigits_append frac fun b r h => (hX b r h).1]

theorem scanInt_append (i : IntDigits) (Y : GoString) (hY : ∀ b r, Y = b :: r → digitOf b = none) :
    scanInt (i.digits.map digitByte ++ Y) = some (i, Y) := by
  obtain ⟨ds, wf⟩ := i
  rcases wf with rfl | ⟨d, ds, rfl, hd⟩
  · simp [scanInt, digitOf_digitByte]
  · simp [scanInt, digitOf_digitByte, hd, takeDigits_append ds hY]

theorem scanNumber_minus (s : GoString) :
    scanNumber (0x2D :: s) = (scanInt s).bind fun i => (scanFrac i.2).bind fun f =>
      (scanExp f.2).map fun e => (⟨true, i.1, f.1, e.1⟩, e.2) := by
  simp [scanNumber]

theorem scanNumber_of_head {s : GoString} (h : s.head? ≠ some 0x2D) :
    scanNumber s = (scanInt s).bind fun i => (scanFrac i.2).bind fun f =>
      (scanExp f.2).map fun e => (⟨false, i.1, f.1, e.1⟩, e.2) := by
  simp [scanNumber, h]

/-- The number states read a literal exactly as spelled, when nothing after it could
extend it. -/
theorem scanNumber_append (n : NumLit) {rest : GoString} (hr : NumStop rest) :
    scanNumber (n.emit ++ rest) = some (n, rest) := by
  obtain ⟨neg, i, frac, e⟩ := n
  have hX := fracStop_exp e hr
  have hfrac := scanFrac_append frac hX
  have hint := scanInt_append i ((if frac = [] then [] else 0x2E :: frac.map digitByte) ++
      ((e.map ExpPart.emit).getD [] ++ rest)) (by
    intro b r h
    by_cases hf : frac = []
    · simp only [hf, if_true, List.nil_append] at h
      exact (hX b r h).1
    · simp only [hf, if_false, List.cons_append, List.cons.injEq] at h
      rw [← h.1]; decide)
  have hhead : ∀ Z : GoString, (i.digits.map digitByte ++ Z).head? ≠ some 0x2D := by
    intro Z
    rcases i.wf with h | ⟨d, ds, h, -⟩ <;> rw [h] <;> simp [(digitByte_ne _).1]
  cases neg
  · rw [NumLit.emit, if_neg Bool.false_ne_true, List.nil_append, List.append_assoc,
      List.append_assoc, scanNumber_of_head (hhead _), hint]
    simp [hfrac, scanExp_append e hr]
  · rw [NumLit.emit, if_pos rfl, List.singleton_append, List.append_assoc, List.append_assoc,
      List.cons_append, scanNumber_minus, hint]
    simp [hfrac, scanExp_append e hr]

/-! ## The parser accepts every well-formed tree -/

/-- What follows an element or a member: `,`, `]` or `}`. -/
def StartsClose (s : GoString) : Prop := ∃ b r, s = b :: r ∧ (b = 0x2C ∨ b = 0x5D ∨ b = 0x7D)

theorem StartsClose.not_space {s : GoString} (h : StartsClose s) :
    ∀ b r, s = b :: r → isSpace b = false := by
  obtain ⟨b, r, rfl, hb⟩ := h
  intro b' r' e
  cases e
  rcases hb with rfl | rfl | rfl <;> decide

theorem delimited_space_append {w : Ws} (hw : allSpace w = true) {rest : GoString}
    (hr : StartsClose rest) : Delimited (w ++ rest) := by
  intro b r h
  cases w with
  | nil =>
    obtain ⟨b', r', rfl, hb⟩ := hr
    cases h
    rcases hb with rfl | rfl | rfl <;> decide
  | cons c w =>
    simp only [allSpace, List.all_cons, Bool.and_eq_true] at hw
    cases h
    simp [isDelim, hw.1]

theorem NumLit.emit_head (n : NumLit) :
    ∃ b r, n.emit = b :: r ∧ (b = 0x2D ∨ ∃ d, b = digitByte d) := by
  rcases n.int.wf with h | ⟨d, ds, h, -⟩ <;> cases hn : n.neg <;>
    simp [NumLit.emit, h, hn]

/-- The first byte of a value is never whitespace, `]` or `}`. -/
theorem Syn.render_head (t : Syn) :
    ∃ b r, t.render = b :: r ∧ isSpace b = false ∧ b ≠ 0x5D ∧ b ≠ 0x7D := by
  cases t with
  | num n =>
    obtain ⟨b, r, h, hb⟩ := n.emit_head
    refine ⟨b, r, h, ?_⟩
    rcases hb with rfl | ⟨d, rfl⟩
    · decide
    · have := digitByte_toNat d
      have := d.isLt
      refine ⟨?_, ?_, ?_⟩
      · rw [Bool.eq_false_iff]; intro e
        simp only [isSpace, Bool.or_eq_true, beq_iff_eq, eq_iff_toNat_eq] at e; simp at e; omega
      all_goals intro e; rw [eq_iff_toNat_eq] at e; simp at e; omega
  | bool b => cases b <;> exact ⟨_, _, rfl, by decide⟩
  | _ => exact ⟨_, _, rfl, by decide⟩

theorem takeSpace_render {w : Ws} (hw : allSpace w = true) (t : Syn) (rest : GoString) :
    takeSpace (w ++ (t.render ++ rest)) = (w, t.render ++ rest) := by
  obtain ⟨b, r, h, hb, -⟩ := t.render_head
  exact takeSpace_append hw _ fun b' r' e => by rw [h] at e; cases e; exact hb

theorem startsClose_elems (es : List Elem) (rest : GoString) :
    StartsClose (renderElems es ++ 0x5D :: rest) := by
  cases es <;> exact ⟨_, _, rfl, by decide⟩

theorem startsClose_members (ms : List Member) (rest : GoString) :
    StartsClose (renderMembers ms ++ 0x7D :: rest) := by
  cases ms <;> exact ⟨_, _, rfl, by decide⟩

theorem parseValue_scalar {fuel depth : Nat} {b : UInt8} {s : GoString}
    (h : b ≠ 0x6E ∧ b ≠ 0x74 ∧ b ≠ 0x66 ∧ b ≠ 0x22 ∧ b ≠ 0x5B ∧ b ≠ 0x7B) :
    parseValue (fuel + 1) depth (b :: s) =
      match scanNumber (b :: s) with
      | some p => .ok (.num p.1, p.2)
      | none => .error .invalid := by
  obtain ⟨h1, h2, h3, h4, h5, h6⟩ := h
  simp [parseValue, h1, h2, h3, h4, h5, h6]

theorem numLead_ne {b : UInt8} (h : b = 0x2D ∨ ∃ d, b = digitByte d) :
    b ≠ 0x6E ∧ b ≠ 0x74 ∧ b ≠ 0x66 ∧ b ≠ 0x22 ∧ b ≠ 0x5B ∧ b ≠ 0x7B := by
  rcases h with rfl | ⟨d, rfl⟩
  · decide
  · have := digitByte_toNat d
    have := d.isLt
    refine ⟨?_, ?_, ?_, ?_, ?_, ?_⟩ <;> intro e <;> rw [eq_iff_toNat_eq] at e <;> simp at e <;>
      omega

theorem head_render_append (t : Syn) (X : GoString) :
    (t.render ++ X).head? ≠ some 0x5D ∧ (t.render ++ X).head? ≠ some 0x7D := by
  obtain ⟨b, r, h, -, h5, h7⟩ := t.render_head
  simp [h, h5, h7]

theorem takeSpace_renderElem {e : Elem} (he : elemWF e = true) (X : GoString) :
    takeSpace (renderElem e ++ X) = (e.1, e.2.1.render ++ (e.2.2 ++ X)) := by
  obtain ⟨w, v, w'⟩ := e
  simp only [elemWF, Bool.and_eq_true] at he
  simp only [renderElem, List.append_assoc]
  exact takeSpace_render he.1.1 v _

theorem parseValue_arr {fuel depth : Nat} {r : GoString} (hd : depth + 1 ≤ maxNestingDepth)
    (hr : (takeSpace r).2.head? ≠ some 0x5D) :
    parseValue (fuel + 1) depth (0x5B :: r) =
      match parseElems fuel (depth + 1) r with
      | .ok p => .ok (.arr p.1 p.2.1, p.2.2)
      | .error err => .error err := by
  simp [parseValue, hr, show ¬ maxNestingDepth < depth + 1 by omega]

theorem parseValue_obj {fuel depth : Nat} {r : GoString} (hd : depth + 1 ≤ maxNestingDepth)
    (hr : (takeSpace r).2.head? ≠ some 0x7D) :
    parseValue (fuel + 1) depth (0x7B :: r) =
      match parseMembers fuel (depth + 1) r with
      | .ok p => .ok (.obj p.1 p.2.1, p.2.2)
      | .error err => .error err := by
  simp [parseValue, hr, show ¬ maxNestingDepth < depth + 1 by omega]

/-- Completeness of the descent, by induction on the fuel: each parser reads back the
bytes of a well-formed tree (a value; an element; elements up to `]`; members up to
`}`), given fuel for twice its length and room for its depth. -/
theorem parse_complete (fuel : Nat) :
    (∀ (t : Syn) (depth : Nat) (rest : GoString), t.WF = true →
      depth + t.depth ≤ maxNestingDepth → 2 * t.render.length < fuel → Delimited rest →
      parseValue fuel depth (t.render ++ rest) = .ok (t, rest)) ∧
    (∀ (e : Elem) (depth : Nat) (rest : GoString), elemWF e = true →
      depth + elemDepth e ≤ maxNestingDepth → 2 * (renderElem e).length + 1 < fuel →
      StartsClose rest → parseElem fuel depth (renderElem e ++ rest) = .ok (e, rest)) ∧
    (∀ (e : Elem) (es : List Elem) (depth : Nat) (rest : GoString), elemWF e = true →
      elemsWF es = true → depth + max (elemDepth e) (elemsDepth es) ≤ maxNestingDepth →
      2 * (renderElem e ++ renderElems es).length + 2 < fuel →
      parseElems fuel depth (renderElem e ++ renderElems es ++ 0x5D :: rest) =
        .ok (e, es, rest)) ∧
    (∀ (m : Member) (ms : List Member) (depth : Nat) (rest : GoString), memberWF m = true →
      membersWF ms = true → depth + max (memberDepth m) (membersDepth ms) ≤ maxNestingDepth →
      2 * (renderMember m ++ renderMembers ms).length + 2 < fuel →
      parseMembers fuel depth (renderMember m ++ renderMembers ms ++ 0x7D :: rest) =
        .ok (m, ms, rest)) := by
  induction fuel with
  | zero => refine ⟨?_, ?_, ?_, ?_⟩ <;> intros <;> omega
  | succ f ih =>
    obtain ⟨hv, he, hes, hms⟩ := ih
    refine ⟨?_, ?_, ?_, ?_⟩
    · intro t depth rest hwf hd hf hr
      cases t with
      | null => simp [Syn.render, parseValue, litValue, dropLit]
      | bool b => cases b <;> simp [Syn.render, parseValue, litValue, dropLit]
      | num n =>
        obtain ⟨b, r, h, hb⟩ := n.emit_head
        have hs : n.emit ++ rest = b :: (r ++ rest) := by rw [h]; rfl
        rw [Syn.render, hs, parseValue_scalar (numLead_ne hb), ← hs,
          scanNumber_append n hr.numStop]
      | str raw =>
        simp only [Syn.WF] at hwf
        simp [Syn.render, quoted, parseValue, scanString_append hwf]
      | arr0 w =>
        simp only [Syn.WF] at hwf
        simp only [Syn.depth] at hd
        have ht := takeSpace_append hwf (0x5D :: rest) fun b r e => by cases e; decide
        simp [Syn.render, parseValue, ht, show ¬ maxNestingDepth < depth + 1 by omega]
      | arr e es =>
        simp only [Syn.WF, Bool.and_eq_true] at hwf
        simp only [Syn.depth] at hd
        simp only [Syn.render, List.length_cons, List.length_append, List.length_singleton] at hf
        have hsplit : (0x5B :: renderElem e ++ renderElems es ++ [0x5D]) ++ rest =
            0x5B :: (renderElem e ++ renderElems es ++ 0x5D :: rest) := by simp
        rw [Syn.render, hsplit, parseValue_arr (by omega) (by
          rw [List.append_assoc, takeSpace_renderElem hwf.1]
          exact (head_render_append _ _).1),
          hes e es (depth + 1) rest hwf.1 hwf.2 (by omega) (by simp only [List.length_append]; omega)]
      | obj0 w =>
        simp only [Syn.WF] at hwf
        simp only [Syn.depth] at hd
        have ht := takeSpace_append hwf (0x7D :: rest) fun b r e => by cases e; decide
        simp [Syn.render, parseValue, ht, show ¬ maxNestingDepth < depth + 1 by omega]
      | obj m ms =>
        simp only [Syn.WF, Bool.and_eq_true] at hwf
        simp only [Syn.depth] at hd
        simp only [Syn.render, List.length_cons, List.length_append, List.length_singleton] at hf
        have hsplit : (0x7B :: renderMember m ++ renderMembers ms ++ [0x7D]) ++ rest =
            0x7B :: (renderMember m ++ renderMembers ms ++ 0x7D :: rest) := by simp
        obtain ⟨w0, k, w1, e⟩ := m
        have hw0 : allSpace w0 = true := by
          simp only [memberWF, Bool.and_eq_true] at hwf; exact hwf.1.1.1.1
        rw [Syn.render, hsplit, parseValue_obj (by omega) (by
          simp only [renderMember, List.append_assoc, quoted, List.cons_append]
          rw [takeSpace_append hw0 _ fun b r e => by cases e; decide]
          simp),
          hms _ ms (depth + 1) rest hwf.1 hwf.2 (by omega) (by simp only [List.length_append]; omega)]
    · rintro ⟨w, v, w'⟩ depth rest hwf hd hf hr
      have hts := takeSpace_renderElem hwf rest
      simp only [elemWF, Bool.and_eq_true] at hwf
      simp only [elemDepth] at hd
      simp only [renderElem, List.length_append] at hf
      rw [parseElem, hts]
      dsimp only
      rw [hv v depth (w' ++ rest) hwf.1.2 hd (by omega) (delimited_space_append hwf.2 hr)]
      simp only [takeSpace_append hwf.2 _ hr.not_space]
    · intro e es depth rest hwf hwfs hd hf
      simp only [List.length_append] at hf
      rw [parseElems, List.append_assoc,
        he e depth _ hwf (by omega) (by omega) (startsClose_elems es rest)]
      cases es with
      | nil => simp [renderElems]
      | cons e' es' =>
        simp only [elemsWF, Bool.and_eq_true] at hwfs
        simp only [elemsDepth] at hd
        simp only [renderElems, List.length_cons, List.length_append] at hf
        simp only [renderElems, List.cons_append, List.head?_cons, List.tail_cons,
          Option.some.injEq, show (0x2C : UInt8) ≠ 0x5D by decide, if_false, if_true]
        rw [hes e' es' depth rest hwfs.1 hwfs.2 (by omega) (by simp only [List.length_append]; omega)]
    · rintro ⟨w0, k, w1, e⟩ ms depth rest hwf hwfs hd hf
      simp only [memberWF, Bool.and_eq_true] at hwf
      simp only [memberDepth] at hd
      simp only [renderMember, quoted, List.length_append, List.length_cons,
        List.length_singleton] at hf
      have hshape : renderMember (w0, k, w1, e) ++ renderMembers ms ++ 0x7D :: rest =
          w0 ++ 0x22 :: (k ++ 0x22 :: (w1 ++ 0x3A ::
            (renderElem e ++ (renderMembers ms ++ 0x7D :: rest)))) := by
        simp [renderMember, quoted]
      rw [hshape, parseMembers, takeSpace_append hwf.1.1.1 _ fun b r e => by cases e; decide]
      simp only [List.head?_cons, List.tail_cons, if_pos]
      rw [scanString_append hwf.1.1.2]
      dsimp only
      rw [takeSpace_append hwf.1.2 _ fun b r e => by cases e; decide]
      simp only [List.head?_cons, List.tail_cons, if_pos]
      rw [he e depth _ hwf.2 (by omega) (by omega) (startsClose_members ms rest)]
      cases ms with
      | nil => simp [renderMembers]
      | cons m' ms' =>
        simp only [membersWF, Bool.and_eq_true] at hwfs
        simp only [membersDepth] at hd
        simp only [renderMembers, List.length_cons, List.length_append] at hf
        simp only [renderMembers, List.cons_append, List.head?_cons, List.tail_cons,
          Option.some.injEq, show (0x2C : UInt8) ≠ 0x7D by decide, if_false, if_true]
        rw [hms m' ms' depth rest hwfs.1 hwfs.2 (by omega) (by simp only [List.length_append]; omega)]

theorem delimited_of_allSpace {w : Ws} (hw : allSpace w = true) : Delimited w := by
  intro b r h
  subst h
  simp only [allSpace, List.all_cons, Bool.and_eq_true] at hw
  simp [isDelim, hw.1]

/-- The scanner accepts every JSON text whose value is nested at most
`maxNestingDepth` deep, and the parse gives back its three parts. -/
theorem parseText_render {w0 w1 : Ws} (h0 : allSpace w0 = true) (h1 : allSpace w1 = true)
    {t : Syn} (ht : t.WF = true) (hd : t.depth ≤ maxNestingDepth) :
    parseText (w0 ++ t.render ++ w1) = .ok (w0, t, w1) := by
  rw [parseText, List.append_assoc, takeSpace_render h0]
  dsimp only
  rw [(parse_complete _).1 t 0 w1 ht (by omega) (by simp only [List.length_append]; omega)
    (delimited_of_allSpace h1)]
  have h1' := takeSpace_append h1 [] fun _ _ e => by cases e
  rw [List.append_nil] at h1'
  simp [h1']

end UbirchClient.Json
