import UbirchClient.Json.Canonical
import UbirchClient.Go.Http
set_option autoImplicit false

/-!
# `json.Marshal` of typed Go values

WHAT THIS FILE IS FOR.  The signing service answers with `json.Marshal` of a struct,
not of a decoded `interface{}`.  Its strings are Go strings, which may hold any bytes,
its byte slices are written in base64, its status code is an `int`, and its header is
an `http.Header`, a `map[string][]string`.  The encoder writes
  * a Go `string` with the loop of `encodeState.string`: an ASCII byte as `quoteRune`
    writes it, a byte that starts no well-formed UTF-8 sequence as `\ufffd`, `U+2028`
    and `U+2029` escaped, and every other sequence copied as it is;
  * a `[]byte` as the quoted standard base64 of its bytes (`encodeByteSlice`);
  * an `int` as its decimal digits, `-` first when negative (`strconv.AppendInt`);
  * a slice as an array of its elements;
  * a map with string keys as an object with its keys in increasing byte order;
  * a struct as an object of its fields in declaration order, without the
    `omitempty` fields that are empty.
Each writer gives a `Syn` tree with empty whitespace slots, so the text is
`Syn.render` of the tree, as in `Json/Encode.lean`.

NIL.  Go writes a `nil` slice or map as `null`.  The byte strings and maps of the
model carry no `nil`, and each is written as a non-`nil` value of its type.

THE ROUND TRIP.  `unquote_quoteBytes`: the decoder reads a written Go string back as
the runes a `range` loop reads off its bytes (`runesOf`), and `validStr_quoteBytes`:
the scanner accepts the written body.  `toValue_rawObjectSyn`, `toValue_arraySyn`
and `toValue_structSyn` carry this through objects, arrays and structs, and
`parseFloat_intLit` reads every Go `int` back as a number: `json.Unmarshal` accepts
whatever these writers produce.
-/

namespace UbirchClient.Json

open UbirchClient.Go

/-! ## What `utf8.DecodeRune` reads -/

/-- `DecodeRune` of a non-empty string reads at least one byte. -/
theorem one_le_decodeRune_cons (b : UInt8) (s : GoString) : 1 ≤ (decodeRune (b :: s)).2 := by
  by_cases h : b.toNat < 0x80
  · simp [decodeRune, h]
  · exact ( decodeRune_prefix b s (by omega)).1

/-- `DecodeRune` at a byte that is not ASCII: `U+FFFD` read from that byte alone, or a
well-formed sequence of two to four bytes, which it reads the same whatever follows. -/
theorem decodeRune_high (b : UInt8) (s : GoString) (hb : 0x80 ≤ b.toNat) :
    decodeRune (b :: s) = (runeError, 1) ∨
      (2 ≤ (decodeRune (b :: s)).2 ∧ (decodeRune (b :: s)).2 ≤ s.length + 1 ∧
        ∀ t, decodeRune ((b :: s).take (decodeRune (b :: s)).2 ++ t) = decodeRune (b :: s)) := by
  have h1 : ¬ b.toNat < 0x80 := by omega
  by_cases h2 : 0xC2 ≤ b.toNat ∧ b.toNat ≤ 0xDF
  · obtain _ | ⟨b1, rest⟩ := s
    · left; simp only [decodeRune, if_neg h1, if_pos h2]
    by_cases ht : isTail b1.toNat
    · right; simp [decodeRune, h1, h2, ht]
    · left; simp only [decodeRune, if_neg h1, if_pos h2, if_neg ht]
  by_cases h3 : 0xE0 ≤ b.toNat ∧ b.toNat ≤ 0xEF
  · obtain _ | ⟨b1, _ | ⟨b2, rest⟩⟩ := s
    · left; simp only [decodeRune, if_neg h1, if_neg h2, if_pos h3]
    · left; simp only [decodeRune, if_neg h1, if_neg h2, if_pos h3]
    by_cases hc : (secondRange3 b.toNat).1 ≤ b1.toNat ∧ b1.toNat ≤ (secondRange3 b.toNat).2 ∧
        isTail b2.toNat
    · right; simp [decodeRune, h1, h2, h3, hc]
    · left; simp only [decodeRune, if_neg h1, if_neg h2, if_pos h3, if_neg hc]
  by_cases h4 : 0xF0 ≤ b.toNat ∧ b.toNat ≤ 0xF4
  · obtain _ | ⟨b1, _ | ⟨b2, _ | ⟨b3, rest⟩⟩⟩ := s
    · left; simp only [decodeRune, if_neg h1, if_neg h2, if_neg h3, if_pos h4]
    · left; simp only [decodeRune, if_neg h1, if_neg h2, if_neg h3, if_pos h4]
    · left; simp only [decodeRune, if_neg h1, if_neg h2, if_neg h3, if_pos h4]
    by_cases hc : (secondRange4 b.toNat).1 ≤ b1.toNat ∧ b1.toNat ≤ (secondRange4 b.toNat).2 ∧
        isTail b2.toNat ∧ isTail b3.toNat
    · right; simp [decodeRune, h1, h2, h3, h4, hc]
    · left; simp only [decodeRune, if_neg h1, if_neg h2, if_neg h3, if_pos h4, if_neg hc]
  · left; simp only [decodeRune, if_neg h1, if_neg h2, if_neg h3, if_neg h4]

/-! ## Go strings -/

/-- The bytes of `\ufffd`. -/
def replacementEscape : GoString := [0x5C, 0x75, 0x66, 0x66, 0x66, 0x64]

/-- One turn of the loop of `encodeState.string` at the bytes `p`: what it writes, and
the bytes it goes on with. -/
def quoteStep (esc : Bool) : GoString → GoString × GoString
  | [] => ([], [])
  | b :: s =>
    let d := decodeRune (b :: s)
    if b.toNat < 0x80 then (quoteRune esc (Rune.ofNat b.toNat), s)
    else if d.1 = runeError ∧ d.2 = 1 then (replacementEscape, s)
    else if d.1.val = 0x2028 ∨ d.1.val = 0x2029 then
      ([0x5C, 0x75, 0x32, 0x30, 0x32, hexDigit false (d.1.val % 16)], (b :: s).drop d.2)
    else ((b :: s).take d.2, (b :: s).drop d.2)

/-- The loop of `encodeState.string`, one turn per unit of fuel. -/
def quoteBytesGo (esc : Bool) : Nat → GoString → GoString
  | _, [] => []
  | 0, _ :: _ => []
  | fuel + 1, b :: s => (quoteStep esc (b :: s)).1 ++ quoteBytesGo esc fuel (quoteStep esc (b :: s)).2

/-- `encodeState.string(s, escapeHTML)` between the quotes.  Every turn reads at least
one byte, so the length of `s` is fuel enough. -/
def quoteBytes (esc : Bool) (s : GoString) : GoString := quoteBytesGo esc s.length s

/-- The runes of `for _, r := range s`, one per unit of fuel: each is `DecodeRune` of
what is left, so a byte that starts no well-formed sequence reads as `U+FFFD`. -/
def runesGo : Nat → GoString → List Rune
  | _, [] => []
  | 0, _ :: _ => []
  | fuel + 1, b :: s => (decodeRune (b :: s)).1 :: runesGo fuel ((b :: s).drop (decodeRune (b :: s)).2)

/-- `[]rune(s)`: the runes a Go string reads as. -/
def runesOf (s : GoString) : List Rune := runesGo s.length s

/-- A byte both escapings copy as it is: printable ASCII other than `"`, `\`, `<`,
`>` and `&`. -/
def plainByte (c : UInt8) : Bool :=
  decide (0x20 ≤ c.toNat) && decide (c.toNat < 0x80) && c != 0x22 && c != 0x5C && c != 0x3C &&
    c != 0x3E && c != 0x26

/-! ## One turn of the loop -/

/-- `\ufffd` reads back as `U+FFFD`. -/
theorem unquoteStep_replacementEscape (t : GoString) :
    unquoteStep (replacementEscape ++ t) = some (runeError, t) := by
  have h1 : escapeValue 0x75 = none := by decide
  have h2 : fromHexChar 0x66 = some 15 := by decide
  have h3 : fromHexChar 0x64 = some 13 := by decide
  have h4 : Rune.ofNat 0xFFFD = runeError := by decide
  simp [unquoteStep, replacementEscape, h1, hex4, h2, h3, unicodeEscape, h4]

theorem quoteStep_snd (esc : Bool) (b : UInt8) (s : GoString) :
    (quoteStep esc (b :: s)).2 = (b :: s).drop (decodeRune (b :: s)).2 := by
  simp only [quoteStep]
  split_ifs with h1 h2
  · simp [decodeRune, h1]
  · simp [h2.2]
  · rfl
  · rfl

theorem quoteStep_fst_ne_nil (esc : Bool) (b : UInt8) (s : GoString) :
    (quoteStep esc (b :: s)).1 ≠ [] := by
  have := one_le_decodeRune_cons b s
  simp only [quoteStep]
  split_ifs
  · exact quoteRune_ne_nil esc _
  · simp [replacementEscape]
  · simp
  · simp only [ne_eq, List.take_eq_nil_iff, List.cons_ne_nil, or_false]; omega

/-- What a turn writes for `U+2028` and `U+2029` is what `quoteRune` writes for them. -/
theorem quoteRune_separator (esc : Bool) {r : Rune} (h : r.val = 0x2028 ∨ r.val = 0x2029) :
    quoteRune esc r = [0x5C, 0x75, 0x32, 0x30, 0x32, hexDigit false (r.val % 16)] := by
  simp [quoteRune, h, show ¬ r.val < 0x80 by omega]

/-- The decoder reads what one turn writes back as the rune `DecodeRune` read there. -/
theorem unquoteStep_quoteStep (esc : Bool) (b : UInt8) (s t : GoString) :
    unquoteStep ((quoteStep esc (b :: s)).1 ++ t) = some ((decodeRune (b :: s)).1, t) := by
  simp only [quoteStep]
  split_ifs with h1 h2 h3
  · rw [unquoteStep_quoteRune]; simp [decodeRune, h1]
  · rw [h2.1, unquoteStep_replacementEscape]
  · rw [← quoteRune_separator esc h3, unquoteStep_quoteRune]
  · -- a well-formed sequence, copied
    have hge : 0x80 ≤ b.toNat := by omega
    obtain he | ⟨hn, hlen, hd⟩ := decodeRune_high b s hge
    · exact absurd (by rw [he]; exact ⟨rfl, rfl⟩) h2
    replace hd := hd t
    obtain ⟨k, hk⟩ : ∃ k, (decodeRune (b :: s)).2 = k + 1 := ⟨_, (Nat.succ_pred_eq_of_pos (by omega)).symm⟩
    rw [hk] at hd hlen ⊢
    simp only [List.take_succ_cons, List.cons_append] at hd ⊢
    have hb1 : b ≠ 0x5C := fun e => by subst e; simp at hge
    have hb2 : ¬ (b = 0x22 ∨ b < 0x20) := by
      rw [lt_iff_toNat_lt, eq_iff_toNat_eq]; simp only [not_or]; simp; omega
    have hb3 : ¬ b < 0x80 := by rw [lt_iff_toNat_lt]; simp; omega
    have hk' : (s.take k).length = k := by simp; omega
    simp only [unquoteStep, if_neg hb1, if_neg hb2, if_neg hb3, hd, hk, List.drop_succ_cons,
      List.drop_left' hk']

/-- The scanner passes over what one turn writes. -/
theorem validFrom_quoteStep (esc : Bool) (b : UInt8) (s t : GoString) :
    validFrom .body ((quoteStep esc (b :: s)).1 ++ t) = validFrom .body t := by
  simp only [quoteStep]
  split_ifs with h1 h2 h3
  · exact validFrom_quoteRune esc _ t
  · rfl
  · rw [← quoteRune_separator esc h3]; exact validFrom_quoteRune esc _ t
  · exact validFrom_high _ ( decodeRune_prefix b s (by omega)).2 t

theorem quoteStep_plain (esc : Bool) {c : UInt8} (hc : plainByte c = true) (s : GoString) :
    quoteStep esc (c :: s) = ([c], s) := by
  simp only [plainByte, Bool.and_eq_true, decide_eq_true_eq, bne_iff_ne, ne_eq] at hc
  obtain ⟨⟨⟨⟨⟨⟨h1, h2⟩, h3⟩, h4⟩, h5⟩, h6⟩, h7⟩ := hc
  have hv : (Rune.ofNat c.toNat).val = c.toNat := by simp [Rune.ofNat, show c.toNat < 0xD800 by omega]
  simp only [quoteStep, if_pos h2, quoteRune, hv]
  simp [eq_iff_toNat_eq] at h3 h4 h5 h6 h7
  rw [if_pos (by simp_all), ofNat_toNat]

/-! ## The whole string -/

theorem validFrom_quoteBytesGo (esc : Bool) (t : GoString) :
    ∀ (fuel : Nat) (s : GoString), validFrom .body (quoteBytesGo esc fuel s ++ t) = validFrom .body t
  | 0, [] => rfl
  | _ + 1, [] => rfl
  | 0, _ :: _ => rfl
  | fuel + 1, b :: s => by
    rw [quoteBytesGo, List.append_assoc, validFrom_quoteStep, validFrom_quoteBytesGo esc t fuel]

/-- The encoder writes Go strings the scanner accepts. -/
theorem validStr_quoteBytes (esc : Bool) (s : GoString) : validStr (quoteBytes esc s) = true := by
  have h := validFrom_quoteBytesGo esc [] s.length s
  rw [List.append_nil] at h
  rw [validStr, quoteBytes, h]
  rfl

theorem unquoteGo_quoteBytesGo (esc : Bool) :
    ∀ (fuel : Nat) (s : GoString), s.length ≤ fuel → ∀ fuel', (quoteBytesGo esc fuel s).length ≤ fuel' →
      unquoteGo fuel' (quoteBytesGo esc fuel s) = some (runesGo fuel s)
  | 0, [], _, fuel', _ => by cases fuel' <;> rfl
  | _ + 1, [], _, fuel', _ => by cases fuel' <;> rfl
  | 0, _ :: _, h, _, _ => by simp at h
  | fuel + 1, b :: s, h, fuel', h' => by
    obtain ⟨c, cs, hc⟩ : ∃ c cs, (quoteStep esc (b :: s)).1 = c :: cs := by
      cases h : (quoteStep esc (b :: s)).1 with
      | nil => exact absurd h (quoteStep_fst_ne_nil esc b s)
      | cons c cs => exact ⟨c, cs, rfl⟩
    have hrest : ((quoteStep esc (b :: s)).2).length ≤ fuel := by
      have := one_le_decodeRune_cons b s
      rw [quoteStep_snd, List.length_drop]
      simp only [List.length_cons] at h ⊢
      omega
    have hstep := unquoteStep_quoteStep esc b s (quoteBytesGo esc fuel (quoteStep esc (b :: s)).2)
    rw [quoteBytesGo] at h' ⊢
    rw [hc] at h' hstep ⊢
    simp only [List.length_append, List.length_cons] at h'
    obtain ⟨f, rfl⟩ : ∃ f, fuel' = f + 1 := ⟨fuel' - 1, by omega⟩
    rw [List.cons_append, unquoteGo, ← List.cons_append, hstep]
    dsimp only
    rw [unquoteGo_quoteBytesGo esc fuel _ hrest f (by omega), quoteStep_snd]
    rfl

/-- The decoder reads a written Go string back as the runes its bytes read as. -/
theorem unquote_quoteBytes (esc : Bool) (s : GoString) : unquote (quoteBytes esc s) = some (runesOf s) :=
  unquoteGo_quoteBytesGo esc s.length s le_rfl _ le_rfl

theorem quoteBytesGo_of_plain (esc : Bool) :
    ∀ (fuel : Nat) (s : GoString), s.length ≤ fuel → (∀ c ∈ s, plainByte c = true) →
      quoteBytesGo esc fuel s = s
  | _, [], _, _ => by cases ‹Nat› <;> rfl
  | 0, _ :: _, h, _ => by simp at h
  | fuel + 1, c :: s, h, hs => by
    rw [quoteBytesGo, quoteStep_plain esc (hs c (List.mem_cons_self _ _)),
      quoteBytesGo_of_plain esc fuel s (by simpa using h) fun c' hc' => hs c' (List.mem_cons_of_mem _ hc')]
    rfl

/-- A string of plain bytes is written as it is. -/
theorem quoteBytes_of_plain (esc : Bool) {s : GoString} (h : ∀ c ∈ s, plainByte c = true) :
    quoteBytes esc s = s :=
  quoteBytesGo_of_plain esc s.length s le_rfl h

theorem utf8Bytes_runesGo_of_ascii :
    ∀ (fuel : Nat) (s : GoString), s.length ≤ fuel → (∀ c ∈ s, c.toNat < 0x80) →
      utf8Bytes (runesGo fuel s) = s
  | _, [], _, _ => by cases ‹Nat› <;> rfl
  | 0, _ :: _, h, _ => by simp at h
  | fuel + 1, c :: s, h, hs => by
    have hc := hs c (List.mem_cons_self _ _)
    have hr : decodeRune (c :: s) = (Rune.ofNat c.toNat, 1) := by simp [decodeRune, hc]
    have hv : (Rune.ofNat c.toNat).val = c.toNat := by simp [Rune.ofNat, show c.toNat < 0xD800 by omega]
    rw [runesGo, hr, utf8Bytes_cons, encodeRune_of_lt (by rw [hv]; exact hc), hv, ofNat_toNat,
      List.drop_one, List.tail_cons, List.singleton_append,
      utf8Bytes_runesGo_of_ascii fuel s (by simpa using h) fun c' hc' => hs c' (List.mem_cons_of_mem _ hc')]

/-- The runes of an ASCII string are its bytes. -/
theorem utf8Bytes_runesOf_of_ascii {s : GoString} (h : ∀ c ∈ s, c.toNat < 0x80) :
    utf8Bytes (runesOf s) = s :=
  utf8Bytes_runesGo_of_ascii s.length s le_rfl h

/-! ## The writers -/

/-- A member with no whitespace, its key already quoted. -/
def rawMember (kt : GoString × Syn) : Member := ([], kt.1, [], bare kt.2)

/-- An object of members in the given order, with no whitespace and each key already
quoted: `{}` when there is none. -/
def rawObjectSyn : List (GoString × Syn) → Syn
  | [] => .obj0 []
  | kt :: kts => .obj (rawMember kt) (kts.map rawMember)

/-- `strconv.AppendInt(b, n, 10)` as a number literal: `-` when negative, then the
digits of `|n|`. -/
def intLit (n : Int) : NumLit := ⟨decide (n < 0), IntDigits.ofNat n.natAbs, [], none⟩

/-- `stringEncoder`: a Go string, quoted. -/
def stringSyn (esc : Bool) (s : GoString) : Syn := .str (quoteBytes esc s)

/-- `encodeByteSlice`: the standard base64 of the bytes, quoted. -/
def bytesSyn (b : GoString) : Syn := .str (base64Encode b)

/-- `intEncoder`. -/
def intSyn (n : GoInt) : Syn := .num (intLit n.1)

/-- `sliceEncoder` on a slice that is not `nil`: its elements in order. -/
def sliceSyn {α : Type} (val : α → Syn) (xs : List α) : Syn := arraySyn (xs.map val)

/-- Insert a map entry after the entries whose keys are smaller bytewise. -/
def insertByBytes {α : Type} (kv : GoString × α) : List (GoString × α) → List (GoString × α)
  | [] => [kv]
  | kv' :: kvs => if bytesLt kv'.1 kv.1 then kv' :: insertByBytes kv kvs else kv :: kv' :: kvs

/-- `sort.Slice(sv, func(i, j int) bool { return sv[i].s < sv[j].s })` on the entries of
a map with string keys. -/
def sortByBytes {α : Type} (kvs : List (GoString × α)) : List (GoString × α) :=
  kvs.foldr insertByBytes []

/-- `mapEncoder` on a map with string keys that is not `nil`: its entries in increasing
key order, each key written as a string. -/
def mapSyn {α : Type} (esc : Bool) (val : α → Syn) (m : GoMap α) : Syn :=
  rawObjectSyn ((sortByBytes m.entries).map fun kv => (quoteBytes esc kv.1, val kv.2))

/-- `structEncoder`: each field under its quoted name, in declaration order; a field is
`none` when `omitempty` leaves it out. -/
def structSyn (esc : Bool) (fields : List (GoString × Option Syn)) : Syn :=
  rawObjectSyn (fields.filterMap fun f => f.2.map fun t => (quoteBytes esc f.1, t))

/-- A field tagged `omitempty` whose emptiness is that of the Go string or slice `b`:
left out when `b` is empty. -/
def omitEmpty {α : Type} (b : GoString) (x : α) : Option α := if b = [] then none else some x

@[simp] theorem map_omitEmpty {α β : Type} (f : α → β) (b : GoString) (x : α) :
    (omitEmpty b x).map f = omitEmpty b (f x) := by
  unfold omitEmpty; split <;> rfl

theorem mem_omitEmpty {α : Type} {b : GoString} {x y : α} (h : y ∈ omitEmpty b x) : y = x := by
  unfold omitEmpty at h; split at h <;> simp_all

theorem forall_mem_omitEmpty {α : Type} {p : α → Prop} (b : GoString) {x : α} (h : p x) :
    ∀ y ∈ omitEmpty b x, p y :=
  fun _ hy => mem_omitEmpty hy ▸ h

theorem forall_mem_some {α : Type} {p : α → Prop} {x : α} (h : p x) : ∀ y ∈ some x, p y :=
  fun _ hy => by cases hy; exact h

theorem omitEmpty_of_ne_nil {α : Type} {b : GoString} (x : α) (h : b ≠ []) : omitEmpty b x = some x :=
  if_neg h

/-! ## What the writers write is JSON -/

theorem stringSyn_wf (esc : Bool) (s : GoString) : (stringSyn esc s).WF = true :=
  validStr_quoteBytes esc s

theorem membersWF_rawMember {kts : List (GoString × Syn)}
    (h : ∀ kt ∈ kts, validStr kt.1 = true ∧ kt.2.WF = true) : membersWF (kts.map rawMember) = true := by
  induction kts with
  | nil => rfl
  | cons kt kts ih =>
    obtain ⟨hk, ht⟩ := h kt (List.mem_cons_self _ _)
    simp [membersWF, memberWF, rawMember, elemWF, bare, allSpace, hk, ht,
      ih fun kt' h' => h kt' (List.mem_cons_of_mem _ h')]

theorem rawObjectSyn_wf {kts : List (GoString × Syn)}
    (h : ∀ kt ∈ kts, validStr kt.1 = true ∧ kt.2.WF = true) : (rawObjectSyn kts).WF = true := by
  cases kts with
  | nil => rfl
  | cons kt kts =>
    obtain ⟨hk, ht⟩ := h kt (List.mem_cons_self _ _)
    simp [rawObjectSyn, Syn.WF, memberWF, rawMember, elemWF, bare, allSpace, hk, ht,
      membersWF_rawMember fun kt' h' => h kt' (List.mem_cons_of_mem _ h')]

theorem rawObjectSyn_depth {kts : List (GoString × Syn)} {n : Nat} (h : ∀ kt ∈ kts, kt.2.depth ≤ n) :
    (rawObjectSyn kts).depth ≤ n + 1 := by
  cases kts with
  | nil => simp [rawObjectSyn, Syn.depth]
  | cons kt kts =>
    have : membersDepth (kts.map rawMember) ≤ n := (membersDepth_le_iff _ _).2 fun m hm => by
      obtain ⟨kt', hkt', rfl⟩ := List.mem_map.1 hm
      exact h kt' (List.mem_cons_of_mem _ hkt')
    have := h kt (List.mem_cons_self _ _)
    simp only [rawObjectSyn, Syn.depth, memberDepth, elemDepth, rawMember, bare]
    omega

theorem mapSyn_wf {α : Type} (esc : Bool) {val : α → Syn} (hv : ∀ a, (val a).WF = true) (m : GoMap α) :
    (mapSyn esc val m).WF = true :=
  rawObjectSyn_wf fun kt hkt => by
    obtain ⟨kv, -, rfl⟩ := List.mem_map.1 hkt
    exact ⟨validStr_quoteBytes esc kv.1, hv kv.2⟩

theorem mapSyn_depth {α : Type} (esc : Bool) {val : α → Syn} {n : Nat} (hv : ∀ a, (val a).depth ≤ n)
    (m : GoMap α) : (mapSyn esc val m).depth ≤ n + 1 :=
  rawObjectSyn_depth fun kt hkt => by
    obtain ⟨kv, -, rfl⟩ := List.mem_map.1 hkt
    exact hv kv.2

theorem structSyn_wf (esc : Bool) {fields : List (GoString × Option Syn)}
    (h : ∀ f ∈ fields, ∀ t ∈ f.2, t.WF = true) : (structSyn esc fields).WF = true :=
  rawObjectSyn_wf fun kt hkt => by
    obtain ⟨f, hf, hft⟩ := List.mem_filterMap.1 hkt
    obtain ⟨t, ht, rfl⟩ := Option.map_eq_some'.1 hft
    exact ⟨validStr_quoteBytes esc f.1, h f hf t ht⟩

theorem structSyn_depth (esc : Bool) {fields : List (GoString × Option Syn)} {n : Nat}
    (h : ∀ f ∈ fields, ∀ t ∈ f.2, t.depth ≤ n) : (structSyn esc fields).depth ≤ n + 1 :=
  rawObjectSyn_depth fun kt hkt => by
    obtain ⟨f, hf, hft⟩ := List.mem_filterMap.1 hkt
    obtain ⟨t, ht, rfl⟩ := Option.map_eq_some'.1 hft
    exact h f hf t ht

/-! ## What the decoder reads back -/

/-- A tree the scanner admits, nested at most `maxNestingDepth` deep, whose value
decodes: `json.Unmarshal` of its text returns that value. -/
theorem unmarshal_render {t : Syn} {v : Value} (hw : t.WF = true) (hd : t.depth ≤ maxNestingDepth)
    (hv : t.toValue = .ok v) : unmarshal t.render = .ok v := by
  have hp := parseText_render (show allSpace ([] : Ws) = true from rfl)
    (show allSpace ([] : Ws) = true from rfl) hw hd
  simp only [List.nil_append, List.append_nil] at hp
  exact unmarshal_of_parseText hp hv

theorem toValue_stringSyn (esc : Bool) (s : GoString) :
    (stringSyn esc s).toValue = .ok (.string (runesOf s)) := by
  simp [stringSyn, Syn.toValue, unquote_quoteBytes]

/-- The standard alphabet and the padding are plain bytes. -/
theorem plainByte_base64Char : ∀ n, n < 64 → plainByte (base64Char n) = true := by decide

theorem base64Encode_plain (x : GoString) : ∀ c ∈ base64Encode x, plainByte c = true := by
  have hp : plainByte padChar = true := by decide
  have hc : ∀ n, n < 64 → plainByte (base64Char n) = true := plainByte_base64Char
  induction x using base64Encode.induct with
  | case1 p q r rest ih =>
    have := toNat_lt_256 p; have := toNat_lt_256 q; have := toNat_lt_256 r
    simp only [base64Encode, List.forall_mem_cons]
    exact ⟨hc _ (by omega), hc _ (by omega), hc _ (by omega), hc _ (by omega), ih⟩
  | case2 p q =>
    have := toNat_lt_256 p; have := toNat_lt_256 q
    simp only [base64Encode, List.forall_mem_cons]
    exact ⟨hc _ (by omega), hc _ (by omega), hc _ (by omega), hp, List.forall_mem_nil _⟩
  | case3 p =>
    have := toNat_lt_256 p
    simp only [base64Encode, List.forall_mem_cons]
    exact ⟨hc _ (by omega), hc _ (by omega), hp, hp, List.forall_mem_nil _⟩
  | case4 => exact List.forall_mem_nil _

/-- `encodeByteSlice` writes what `stringEncoder` writes for the base64 text. -/
theorem bytesSyn_eq (esc : Bool) (b : GoString) : bytesSyn b = stringSyn esc (base64Encode b) := by
  rw [stringSyn, quoteBytes_of_plain esc (base64Encode_plain b)]
  rfl

theorem intLit_magnitude (n : Int) : (intLit n).magnitude = (n.natAbs, 1) := by
  simp [intLit, NumLit.magnitude, NumLit.mantissa, NumLit.exponent, IntDigits.ofNat, magnitudePair]

/-- An integer below `2^64` rounds to a finite `float64`. -/
theorem roundToFloat_isSome {a : Nat} (ha : a < 2 ^ 64) : (roundToFloat a 1).isSome := by
  by_cases h0 : a = 0
  · simp [roundToFloat, h0]
  obtain ⟨h1, -, -⟩ := bitLength_spec (n := a) (by omega)
  have hlen : bitLength a ≤ 64 := by
    by_contra hc
    have : 2 ^ 64 ≤ 2 ^ (bitLength a - 1) := Nat.pow_le_pow_right (by decide) (by omega)
    omega
  have hf : floorLog2 a 1 ≤ 63 := by
    have : bitLength 1 = 1 := by decide
    unfold floorLog2
    dsimp only
    split <;> omega
  rw [roundToFloat, if_neg h0]
  dsimp only
  rw [dif_pos (by split <;> omega)]
  rfl

/-- Every Go `int` reads back as a number. -/
theorem parseFloat_intLit (n : GoInt) : (parseFloat (intLit n.1)).isSome := by
  simp only [parseFloat, intLit_magnitude, Option.isSome_map']
  exact roundToFloat_isSome (by have := n.2; omega)

/-- The number a Go `int` reads back as through `interface{}`. -/
def intValue (n : GoInt) : Value := .number ((parseFloat (intLit n.1)).get (parseFloat_intLit n))

theorem toValue_intSyn (n : GoInt) : (intSyn n).toValue = .ok (intValue n) := by
  simp only [intSyn, Syn.toValue, intValue]
  split
  · rename_i f hf
    simp [hf]
  · rename_i hf
    have := parseFloat_intLit n
    simp [hf] at this

theorem membersEntries_rawMember {β : Type} (xs : List β) (key : β → GoString) (t : β → Syn)
    (f : β → List Rune × Value) (h : ∀ x ∈ xs, unquote (key x) = some (f x).1 ∧ (t x).toValue = .ok (f x).2) :
    membersEntries ((xs.map fun x => (key x, t x)).map rawMember) = .ok (xs.map f) := by
  induction xs with
  | nil => rfl
  | cons x xs ih =>
    obtain ⟨hk, ht⟩ := h x (List.mem_cons_self _ _)
    simp only [List.map_cons, membersEntries, memberEntry, rawMember, elemValue, bare, hk, ht,
      ih fun x' h' => h x' (List.mem_cons_of_mem _ h')]

theorem toValue_rawObjectSyn {β : Type} (xs : List β) (key : β → GoString) (t : β → Syn)
    (f : β → List Rune × Value) (h : ∀ x ∈ xs, unquote (key x) = some (f x).1 ∧ (t x).toValue = .ok (f x).2) :
    (rawObjectSyn (xs.map fun x => (key x, t x))).toValue = .ok (.object (buildMap (xs.map f))) := by
  cases xs with
  | nil => rfl
  | cons x xs =>
    obtain ⟨hk, ht⟩ := h x (List.mem_cons_self _ _)
    have hs := membersEntries_rawMember xs key t f fun x' h' => h x' (List.mem_cons_of_mem _ h')
    simp only [List.map_cons, rawObjectSyn, Syn.toValue, memberEntry, rawMember, elemValue, bare, hk, ht]
    simp only [rawMember, bare] at hs
    rw [hs]

theorem elemsValue_bare {β : Type} (xs : List β) (t : β → Syn) (g : β → Value)
    (h : ∀ x ∈ xs, (t x).toValue = .ok (g x)) : elemsValue ((xs.map t).map bare) = .ok (xs.map g) := by
  induction xs with
  | nil => rfl
  | cons x xs ih =>
    simp only [List.map_cons, elemsValue, elemValue, bare, h x (List.mem_cons_self _ _),
      ih fun x' h' => h x' (List.mem_cons_of_mem _ h')]

theorem toValue_sliceSyn {β : Type} (val : β → Syn) (g : β → Value)
    (h : ∀ x, (val x).toValue = .ok (g x)) (xs : List β) :
    (sliceSyn val xs).toValue = .ok (.array (xs.map g)) := by
  cases xs with
  | nil => rfl
  | cons x xs =>
    have hs := elemsValue_bare xs val g fun x' _ => h x'
    simp only [bare] at hs
    simp only [sliceSyn, List.map_cons, arraySyn, Syn.toValue, elemValue, bare, h x, hs]

theorem toValue_mapSyn {α : Type} (esc : Bool) (val : α → Syn) (g : α → Value)
    (hv : ∀ a, (val a).toValue = .ok (g a)) (m : GoMap α) :
    (mapSyn esc val m).toValue =
      .ok (.object (buildMap ((sortByBytes m.entries).map fun kv => (runesOf kv.1, g kv.2)))) :=
  toValue_rawObjectSyn _ _ _ _ fun kv _ => ⟨unquote_quoteBytes esc kv.1, hv kv.2⟩

/-- What `json.Unmarshal` into `interface{}` reads from a struct: the map from the
names of its present fields, as runes, to their values. -/
def structValue (fields : List (GoString × Option Value)) : Value :=
  .object (buildMap (fields.filterMap fun f => f.2.map fun v => (runesOf f.1, v)))

/-- A struct whose present fields each decode reads back as the map of its field names
to their values. -/
theorem toValue_structSyn (esc : Bool) (fields : List (GoString × Option (Syn × Value)))
    (h : ∀ f ∈ fields, ∀ tv ∈ f.2, tv.1.toValue = .ok tv.2) :
    (structSyn esc (fields.map fun f => (f.1, f.2.map Prod.fst))).toValue =
      .ok (structValue (fields.map fun f => (f.1, f.2.map Prod.snd))) := by
  have e1 : (fields.map fun f => (f.1, f.2.map Prod.fst)).filterMap
        (fun f => f.2.map fun t => (quoteBytes esc f.1, t)) =
      (fields.filterMap fun f => f.2.map fun tv => (f.1, tv)).map
        fun x => (quoteBytes esc x.1, x.2.1) := by
    simp [List.filterMap_map, List.map_filterMap, Option.map_map, Function.comp_def]
  have e2 : (fields.map fun f => (f.1, f.2.map Prod.snd)).filterMap
        (fun f => f.2.map fun v => (runesOf f.1, v)) =
      (fields.filterMap fun f => f.2.map fun tv => (f.1, tv)).map fun x => (runesOf x.1, x.2.2) := by
    simp [List.filterMap_map, List.map_filterMap, Option.map_map, Function.comp_def]
  rw [structSyn, structValue, e1, e2]
  refine toValue_rawObjectSyn _ _ _ _ fun x hx => ⟨unquote_quoteBytes esc x.1, ?_⟩
  obtain ⟨f, hf, hfx⟩ := List.mem_filterMap.1 hx
  obtain ⟨tv, htv, rfl⟩ := Option.map_eq_some'.1 hfx
  exact h f hf tv htv

/-! ## Reading a decoded object -/

/-- `m[key]` on the entries of a decoded map. -/
def lookupKey {α : Type} (k : List Rune) : List (List Rune × α) → Option α
  | [] => none
  | (k', v) :: kvs => if k = k' then some v else lookupKey k kvs

theorem lookupKey_append {α : Type} (k : List Rune) (xs ys : List (List Rune × α)) :
    lookupKey k (xs ++ ys) = (lookupKey k xs).or (lookupKey k ys) := by
  induction xs with
  | nil => rfl
  | cons kv xs ih =>
    obtain ⟨k', v⟩ := kv
    by_cases h : k = k' <;> simp [lookupKey, h, ih]

theorem lookupKey_insertKey {α : Type} (k k' : List Rune) (v : α) (m : List (List Rune × α)) :
    lookupKey k (insertKey k' v m) = if k = k' then some v else lookupKey k m := by
  induction m with
  | nil => simp [insertKey, lookupKey]
  | cons kv m ih =>
    obtain ⟨k'', v''⟩ := kv
    simp only [insertKey]
    split_ifs <;> simp_all [lookupKey]

/-- In a map built entry by entry, the last entry with a key is the one that stays. -/
theorem lookupKey_buildMap {α : Type} (k : List Rune) (kvs : List (List Rune × α)) :
    lookupKey k (buildMap kvs) = lookupKey k kvs.reverse := by
  suffices ∀ m, lookupKey k (kvs.foldl (fun m kv => insertKey kv.1 kv.2 m) m) =
      (lookupKey k kvs.reverse).or (lookupKey k m) by
    simpa [buildMap, lookupKey] using this []
  induction kvs with
  | nil => intro m; simp [lookupKey]
  | cons kv kvs ih =>
    intro m
    obtain ⟨k', v⟩ := kv
    rw [List.foldl_cons, ih, lookupKey_insertKey, List.reverse_cons, lookupKey_append]
    by_cases h : k = k' <;> simp [lookupKey, h, Option.or_assoc]

theorem lookupKey_eq_none {α : Type} {k : List Rune} {kvs : List (List Rune × α)}
    (h : k ∉ kvs.map Prod.fst) : lookupKey k kvs = none := by
  induction kvs with
  | nil => rfl
  | cons kv kvs ih =>
    obtain ⟨k', v⟩ := kv
    simp only [List.map_cons, List.mem_cons, not_or] at h
    simp [lookupKey, h.1, ih h.2]

theorem lookupKey_of_mem {α : Type} {k : List Rune} {v : α} {kvs : List (List Rune × α)}
    (hd : (kvs.map Prod.fst).Nodup) (h : (k, v) ∈ kvs) : lookupKey k kvs = some v := by
  induction kvs with
  | nil => cases h
  | cons kv kvs ih =>
    obtain ⟨k', v'⟩ := kv
    simp only [List.map_cons, List.nodup_cons] at hd
    rcases List.mem_cons.1 h with e | h
    · cases e; simp [lookupKey]
    · have hne : k ≠ k' := fun e => hd.1 (e ▸ List.mem_map_of_mem Prod.fst h)
      simp [lookupKey, hne, ih hd.2 h]

/-- The present fields of a struct with distinct field names, looked up in the order the
decoder builds its map: the field's value, `none` when `omitempty` left it out. -/
theorem lookupKey_filterMap_reverse {α : Type} (k : List Rune) (fields : List (List Rune × Option α))
    (hd : (fields.map Prod.fst).Nodup) :
    lookupKey k (fields.filterMap fun f => f.2.map fun v => (f.1, v)).reverse =
      (lookupKey k fields).join := by
  induction fields with
  | nil => rfl
  | cons f fields ih =>
    obtain ⟨k', o⟩ := f
    simp only [List.map_cons, List.nodup_cons] at hd
    by_cases e : k = k'
    · subst e
      have hr : lookupKey k (fields.filterMap fun f => f.2.map fun v => (f.1, v)).reverse = none := by
        rw [ih hd.2, lookupKey_eq_none hd.1]; rfl
      cases o <;> simp [lookupKey, lookupKey_append, hr]
    · cases o <;> simp [lookupKey, lookupKey_append, e, ih hd.2]

/-- The member `key` of a decoded object. -/
def Value.field (v : Value) (key : GoString) : Option Value :=
  match v with
  | .object kvs => lookupKey (runesOf key) kvs
  | _ => none

/-- What `json.Unmarshal` stores into a `[]byte` from a JSON string: the string's
bytes, base64-decoded. -/
def Value.bytes? : Value → Option GoString
  | .string s => (base64Decode (utf8Bytes s)).toOption
  | _ => none

/-- A written byte slice reads back as its bytes. -/
theorem bytes?_base64 (b : GoString) : (Value.string (runesOf (base64Encode b))).bytes? = some b := by
  have : ∀ c ∈ base64Encode b, c.toNat < 0x80 := fun c hc => by
    have := base64Encode_plain b c hc
    simp only [plainByte, Bool.and_eq_true, decide_eq_true_eq] at this
    exact this.1.1.1.1.1.2
  simp [Value.bytes?, utf8Bytes_runesOf_of_ascii this, base64Decode_base64Encode, Except.toOption]

/-- A field of a decoded struct with distinct field names: its value, or `none` when
`omitempty` left it out. -/
theorem field_structValue {fields : List (GoString × Option Value)}
    (hd : (fields.map fun f => runesOf f.1).Nodup) (k : GoString) :
    (structValue fields).field k = (lookupKey (runesOf k) (fields.map fun f => (runesOf f.1, f.2))).join := by
  have e : (fields.filterMap fun f => f.2.map fun v => (runesOf f.1, v)) =
      (fields.map fun f => (runesOf f.1, f.2)).filterMap fun f => f.2.map fun v => (f.1, v) := by
    simp [List.filterMap_map, Function.comp_def]
  rw [structValue, Value.field, lookupKey_buildMap, e,
    lookupKey_filterMap_reverse _ _ (by simpa [List.map_map, Function.comp_def] using hd)]

theorem field_structValue_of_mem {fields : List (GoString × Option Value)}
    (hd : (fields.map fun f => runesOf f.1).Nodup) {k : GoString} {o : Option Value}
    (h : (k, o) ∈ fields) : (structValue fields).field k = o := by
  rw [field_structValue hd, lookupKey_of_mem (by simpa [Function.comp_def] using hd)
    (List.mem_map_of_mem (fun f => (runesOf f.1, f.2)) h)]
  rfl

end UbirchClient.Json
