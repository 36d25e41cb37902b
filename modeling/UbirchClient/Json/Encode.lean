import UbirchClient.Json.Value
set_option autoImplicit false

/-!
# The encoder, `json.Compact`, and the round trip

WHAT THIS FILE IS FOR.  After decoding, `GetSortedCompactJSON` writes the value
back with an `Encoder` whose HTML escaping is off, and the old api surface with
`json.Marshal`, whose HTML escaping is on; both then run `json.Compact`.  The
encoder's output is a text with no whitespace: `null`, `true`, `false`, the
`floatEncoder` spelling of a number, a quoted string, `[` elements `,`-separated
`]`, and `{` members in increasing key order `}`.  `Value.encode` gives it as a
syntax tree with empty whitespace slots, so its bytes are `Syn.render` of that
tree; `Encoder.Encode` adds a newline.  `json.Compact` runs the scanner and drops
the whitespace it skipped: on a tree that is `Syn.strip`.

THE ROUND TRIP.  For every value whose maps are in key order and that is nested at
most `maxNestingDepth` deep:
* `parseText_encoderEncode`: the scanner accepts the encoder's output and returns the tree
  it was rendered from;
* `Value.toValue_encode`: decoding that tree gives the value back (numbers by
  `parseFloat_formatFloat`, strings by `unquote_quoteBody`, maps because a map
  already in key order is rebuilt unchanged);
* `compact_encoderEncode`: `json.Compact` of the encoder's output is that output
  without its final newline.
-/

namespace UbirchClient.Json

open UbirchClient.Go

/-! ## The encoder -/

/-- Insert an entry after the entries with smaller keys. -/
def insertByKey {α : Type} (kv : List Rune × α) : List (List Rune × α) → List (List Rune × α)
  | [] => [kv]
  | kv' :: kvs => if keyLt kv'.1 kv.1 then kv' :: insertByKey kv kvs else kv :: kv' :: kvs

/-- `sort.Slice(sv, func(i, j int) bool { return sv[i].ks < sv[j].ks })`. -/
def sortByKey {α : Type} (kvs : List (List Rune × α)) : List (List Rune × α) :=
  kvs.foldr insertByKey []

/-- An element with no whitespace around it. -/
def bare (t : Syn) : Elem := ([], t, [])

/-- `arrayEncoder`: `[]` when empty, else the elements between brackets. -/
def arraySyn : List Syn → Syn
  | [] => .arr0 []
  | t :: ts => .arr (bare t) (ts.map bare)

/-- A member with no whitespace: the quoted key, `:`, the value. -/
def bareMember (esc : Bool) (kt : List Rune × Syn) : Member := ([], quoteBody esc kt.1, [], bare kt.2)

/-- `mapEncoder` once the keys are sorted: `{}` when empty, else the members. -/
def objectSyn (esc : Bool) : List (List Rune × Syn) → Syn
  | [] => .obj0 []
  | kt :: kts => .obj (bareMember esc kt) (kts.map (bareMember esc))

mutual
/-- The text `encodeState.marshal` writes for a value, as a tree with empty
whitespace slots; `esc` is `escapeHTML`. -/
def Value.encode (esc : Bool) : Value → Syn
  | .null => .null
  | .bool b => .bool b
  | .number f => .num (formatFloat f)
  | .string s => .str (quoteBody esc s)
  | .array vs => arraySyn (encodeList esc vs)
  | .object kvs => objectSyn esc (sortByKey (encodeEntries esc kvs))
/-- `Value.encode` of each value of a list. -/
def encodeList (esc : Bool) : List Value → List Syn
  | [] => []
  | v :: vs => v.encode esc :: encodeList esc vs
/-- `Value.encode` of each value of a map. -/
def encodeEntries (esc : Bool) : List (List Rune × Value) → List (List Rune × Syn)
  | [] => []
  | kv :: kvs => (kv.1, kv.2.encode esc) :: encodeEntries esc kvs
end

/-- `json.Marshal(v)`: HTML escaping on, no newline. -/
def marshal (v : Value) : GoString := (v.encode true).render

/-- `Encoder.Encode(v)` on an encoder whose HTML escaping is `esc`: the text and a
newline. -/
def encoderEncode (esc : Bool) (v : Value) : GoString := (v.encode esc).render ++ [0x0A]

/-! ## `json.Compact` -/

mutual
/-- The tree with every whitespace slot emptied. -/
def Syn.strip : Syn → Syn
  | .arr0 _ => .arr0 []
  | .arr e es => .arr (stripElem e) (stripElems es)
  | .obj0 _ => .obj0 []
  | .obj m ms => .obj (stripMember m) (stripMembers ms)
  | t => t
/-- `Syn.strip` of an element. -/
def stripElem : Elem → Elem
  | (_, v, _) => ([], v.strip, [])
/-- `Syn.strip` of elements. -/
def stripElems : List Elem → List Elem
  | [] => []
  | e :: es => stripElem e :: stripElems es
/-- `Syn.strip` of a member. -/
def stripMember : Member → Member
  | (_, k, _, e) => ([], k, [], stripElem e)
/-- `Syn.strip` of members. -/
def stripMembers : List Member → List Member
  | [] => []
  | m :: ms => stripMember m :: stripMembers ms
end

/-- `json.Compact`: the text with the whitespace the scanner skips removed, or the
scanner's error. -/
def compact (s : GoString) : Except SyntaxError GoString :=
  match parseText s with
  | .ok p => .ok p.2.1.strip.render
  | .error e => .error e

/-! ## Sorting entries already in key order -/

theorem mem_insertByKey {α : Type} {kv x : List Rune × α} {kvs : List (List Rune × α)} :
    x ∈ insertByKey kv kvs ↔ x = kv ∨ x ∈ kvs := by
  induction kvs with
  | nil => simp [insertByKey]
  | cons kv' kvs ih =>
    simp only [insertByKey]
    split_ifs <;> simp [ih, or_left_comm]

theorem mem_sortByKey {α : Type} {x : List Rune × α} {kvs : List (List Rune × α)} :
    x ∈ sortByKey kvs ↔ x ∈ kvs := by
  induction kvs with
  | nil => rfl
  | cons kv kvs ih => simp [sortByKey, mem_insertByKey, ← ih]

/-- Sorting entries that are already in key order changes nothing. -/
theorem sortByKey_of_sorted {α : Type} {kvs : List (List Rune × α)} (h : KeysSorted kvs) :
    sortByKey kvs = kvs := by
  induction kvs with
  | nil => rfl
  | cons kv kvs ih =>
    unfold KeysSorted at h
    rw [List.pairwise_cons] at h
    have ih' := ih h.2
    simp only [sortByKey, List.foldr_cons] at ih' ⊢
    rw [ih']
    cases kvs with
    | nil => rfl
    | cons kv' kvs => simp [insertByKey, keyLt_asymm (h.1 kv' (List.mem_cons_self _ _))]

theorem insertKey_of_lt {α : Type} {k : List Rune} (v : α) {m : List (List Rune × α)}
    (hlt : ∀ x ∈ m, keyLt x.1 k = true) : insertKey k v m = m ++ [(k, v)] := by
  induction m with
  | nil => rfl
  | cons x m ih =>
    have hx := hlt x (List.mem_cons_self _ _)
    have hne : k ≠ x.1 := fun e => by rw [e, keyLt_irrefl] at hx; cases hx
    simp [insertKey, hne, keyLt_asymm hx, ih fun y hy => hlt y (List.mem_cons_of_mem _ hy)]

theorem foldl_insertKey_of_sorted {α : Type} (kvs : List (List Rune × α)) :
    ∀ m, KeysSorted (m ++ kvs) → kvs.foldl (fun m kv => insertKey kv.1 kv.2 m) m = m ++ kvs := by
  induction kvs with
  | nil => simp
  | cons kv kvs ih =>
    intro m hm
    have hlt : ∀ x ∈ m, keyLt x.1 kv.1 = true := fun x hx =>
      (List.pairwise_append.1 hm).2.2 x hx kv (List.mem_cons_self _ _)
    rw [List.foldl_cons, insertKey_of_lt kv.2 hlt, ih _ (by simpa using hm)]
    simp

/-- Rebuilding a map from its own entries, in key order, changes nothing. -/
theorem buildMap_of_sorted {α : Type} {kvs : List (List Rune × α)} (h : KeysSorted kvs) :
    buildMap kvs = kvs := by
  simpa using foldl_insertKey_of_sorted kvs [] (by simpa using h)

theorem keysSorted_map_snd {α β : Type} (f : α → β) {kvs : List (List Rune × α)}
    (h : KeysSorted kvs) : KeysSorted (kvs.map fun kv => (kv.1, f kv.2)) := by
  unfold KeysSorted at h ⊢
  exact List.pairwise_map.2 h

theorem encodeEntries_eq (esc : Bool) (kvs : List (List Rune × Value)) :
    encodeEntries esc kvs = kvs.map fun kv => (kv.1, kv.2.encode esc) := by
  induction kvs with
  | nil => rfl
  | cons kv kvs ih => simp [encodeEntries, ih]

theorem encodeList_eq (esc : Bool) (vs : List Value) : encodeList esc vs = vs.map (Value.encode esc) := by
  induction vs with
  | nil => rfl
  | cons v vs ih => simp [encodeList, ih]

/-! ## The encoder's output is a well-formed, compact tree -/

theorem elemsWF_bare {ts : List Syn} (h : ∀ t ∈ ts, t.WF = true) : elemsWF (ts.map bare) = true := by
  induction ts with
  | nil => rfl
  | cons t ts ih =>
    simp [elemsWF, elemWF, bare, allSpace, h t (List.mem_cons_self _ _),
      ih fun t' ht' => h t' (List.mem_cons_of_mem _ ht')]

theorem arraySyn_wf {ts : List Syn} (h : ∀ t ∈ ts, t.WF = true) : (arraySyn ts).WF = true := by
  cases ts with
  | nil => rfl
  | cons t ts =>
    simp [arraySyn, Syn.WF, elemWF, bare, allSpace, h t (List.mem_cons_self _ _),
      elemsWF_bare fun t' ht' => h t' (List.mem_cons_of_mem _ ht')]

theorem membersWF_bare (esc : Bool) {kts : List (List Rune × Syn)} (h : ∀ kt ∈ kts, kt.2.WF = true) :
    membersWF (kts.map (bareMember esc)) = true := by
  induction kts with
  | nil => rfl
  | cons kt kts ih =>
    simp [membersWF, memberWF, bareMember, elemWF, bare, allSpace, validStr_quoteBody,
      h kt (List.mem_cons_self _ _), ih fun t' ht' => h t' (List.mem_cons_of_mem _ ht')]

theorem objectSyn_wf (esc : Bool) {kts : List (List Rune × Syn)} (h : ∀ kt ∈ kts, kt.2.WF = true) :
    (objectSyn esc kts).WF = true := by
  cases kts with
  | nil => rfl
  | cons kt kts =>
    simp [objectSyn, Syn.WF, memberWF, bareMember, elemWF, bare, allSpace, validStr_quoteBody,
      h kt (List.mem_cons_self _ _), membersWF_bare esc fun t' ht' => h t' (List.mem_cons_of_mem _ ht')]

mutual
/-- The encoder writes only string bodies the scanner accepts. -/
theorem Value.encode_wf (esc : Bool) : (v : Value) → (v.encode esc).WF = true
  | .null => rfl
  | .bool _ => rfl
  | .number _ => rfl
  | .string s => validStr_quoteBody esc s
  | .array vs => arraySyn_wf (encodeList_wf esc vs)
  | .object kvs => objectSyn_wf esc fun kt hkt => encodeEntries_wf esc kvs kt (mem_sortByKey.1 hkt)
theorem encodeList_wf (esc : Bool) : (vs : List Value) → ∀ t ∈ encodeList esc vs, t.WF = true
  | [], _, h => by cases h
  | v :: vs, t, h => by
    rcases List.mem_cons.1 h with rfl | h
    · exact v.encode_wf esc
    · exact encodeList_wf esc vs t h
theorem encodeEntries_wf (esc : Bool) :
    (kvs : List (List Rune × Value)) → ∀ kt ∈ encodeEntries esc kvs, kt.2.WF = true
  | [], _, h => by cases h
  | (_, v) :: kvs, kt, h => by
    rcases List.mem_cons.1 h with rfl | h
    · exact v.encode_wf esc
    · exact encodeEntries_wf esc kvs kt h
end

theorem stripElems_bare {ts : List Syn} (h : ∀ t ∈ ts, t.strip = t) :
    stripElems (ts.map bare) = ts.map bare := by
  induction ts with
  | nil => rfl
  | cons t ts ih =>
    simp [stripElems, stripElem, bare, h t (List.mem_cons_self _ _),
      ih fun t' ht' => h t' (List.mem_cons_of_mem _ ht')]

theorem stripMembers_bare (esc : Bool) {kts : List (List Rune × Syn)}
    (h : ∀ kt ∈ kts, kt.2.strip = kt.2) :
    stripMembers (kts.map (bareMember esc)) = kts.map (bareMember esc) := by
  induction kts with
  | nil => rfl
  | cons kt kts ih =>
    simp [stripMembers, stripMember, stripElem, bareMember, bare, h kt (List.mem_cons_self _ _),
      ih fun t' ht' => h t' (List.mem_cons_of_mem _ ht')]

mutual
/-- The encoder writes no whitespace. -/
theorem Value.strip_encode (esc : Bool) : (v : Value) → (v.encode esc).strip = v.encode esc
  | .null => rfl
  | .bool _ => rfl
  | .number _ => rfl
  | .string _ => rfl
  | .array vs => by
    have h := encodeList_strip esc vs
    simp only [Value.encode]
    cases hts : encodeList esc vs with
    | nil => rfl
    | cons t ts =>
      rw [hts] at h
      simp [arraySyn, Syn.strip, stripElem, bare, h t (List.mem_cons_self _ _),
        stripElems_bare fun t' ht' => h t' (List.mem_cons_of_mem _ ht')]
  | .object kvs => by
    have h : ∀ kt ∈ sortByKey (encodeEntries esc kvs), kt.2.strip = kt.2 :=
      fun kt hkt => encodeEntries_strip esc kvs kt (mem_sortByKey.1 hkt)
    simp only [Value.encode]
    cases hkts : sortByKey (encodeEntries esc kvs) with
    | nil => rfl
    | cons kt kts =>
      rw [hkts] at h
      simp [objectSyn, Syn.strip, stripMember, stripElem, bareMember, bare,
        h kt (List.mem_cons_self _ _), stripMembers_bare esc fun t' ht' => h t' (List.mem_cons_of_mem _ ht')]
theorem encodeList_strip (esc : Bool) : (vs : List Value) → ∀ t ∈ encodeList esc vs, t.strip = t
  | [], _, h => by cases h
  | v :: vs, t, h => by
    rcases List.mem_cons.1 h with rfl | h
    · exact v.strip_encode esc
    · exact encodeList_strip esc vs t h
theorem encodeEntries_strip (esc : Bool) :
    (kvs : List (List Rune × Value)) → ∀ kt ∈ encodeEntries esc kvs, kt.2.strip = kt.2
  | [], _, h => by cases h
  | (_, v) :: kvs, kt, h => by
    rcases List.mem_cons.1 h with rfl | h
    · exact v.strip_encode esc
    · exact encodeEntries_strip esc kvs kt h
end

theorem arraySyn_depth {ts : List Syn} {n : Nat} (h : ∀ t ∈ ts, t.depth ≤ n) :
    (arraySyn ts).depth ≤ n + 1 := by
  cases ts with
  | nil => simp [arraySyn, Syn.depth]
  | cons t ts =>
    have : elemsDepth (ts.map bare) ≤ n := (elemsDepth_le_iff _ _).2 fun e he => by
      obtain ⟨t', ht', rfl⟩ := List.mem_map.1 he
      exact h t' (List.mem_cons_of_mem _ ht')
    simp only [arraySyn, Syn.depth, elemDepth, bare]
    have := h t (List.mem_cons_self _ _)
    omega

theorem objectSyn_depth (esc : Bool) {kts : List (List Rune × Syn)} {n : Nat}
    (h : ∀ kt ∈ kts, kt.2.depth ≤ n) : (objectSyn esc kts).depth ≤ n + 1 := by
  cases kts with
  | nil => simp [objectSyn, Syn.depth]
  | cons kt kts =>
    have : membersDepth (kts.map (bareMember esc)) ≤ n := (membersDepth_le_iff _ _).2 fun m hm => by
      obtain ⟨kt', hkt', rfl⟩ := List.mem_map.1 hm
      exact h kt' (List.mem_cons_of_mem _ hkt')
    simp only [objectSyn, Syn.depth, memberDepth, elemDepth, bareMember, bare]
    have := h kt (List.mem_cons_self _ _)
    omega

mutual
/-- The encoder's output is no deeper than the value. -/
theorem Value.encode_depth (esc : Bool) : (v : Value) → (v.encode esc).depth ≤ v.depth
  | .null => le_rfl
  | .bool _ => le_rfl
  | .number _ => le_rfl
  | .string _ => le_rfl
  | .array vs => arraySyn_depth (encodeList_depth esc vs)
  | .object kvs => objectSyn_depth esc fun kt hkt => encodeEntries_depth esc kvs kt (mem_sortByKey.1 hkt)
theorem encodeList_depth (esc : Bool) :
    (vs : List Value) → ∀ t ∈ encodeList esc vs, t.depth ≤ listDepth vs
  | [], _, h => by cases h
  | v :: vs, t, h => by
    rcases List.mem_cons.1 h with rfl | h
    · exact le_trans (v.encode_depth esc) (le_max_left _ _)
    · exact le_trans (encodeList_depth esc vs t h) (le_max_right _ _)
theorem encodeEntries_depth (esc : Bool) :
    (kvs : List (List Rune × Value)) → ∀ kt ∈ encodeEntries esc kvs, kt.2.depth ≤ entriesDepth kvs
  | [], _, h => by cases h
  | (_, v) :: kvs, kt, h => by
    rcases List.mem_cons.1 h with rfl | h
    · exact le_trans (v.encode_depth esc) (le_max_left _ _)
    · exact le_trans (encodeEntries_depth esc kvs kt h) (le_max_right _ _)
end

/-! ## Decoding the encoder's output -/

theorem sortByKey_encodeEntries (esc : Bool) {kvs : List (List Rune × Value)}
    (h : KeysSorted kvs) : sortByKey (encodeEntries esc kvs) = encodeEntries esc kvs := by
  rw [encodeEntries_eq]
  exact sortByKey_of_sorted (keysSorted_map_snd _ h)

mutual
/-- Decoding the encoder's output gives the value back, for a value whose maps are in
key order. -/
theorem Value.toValue_encode (esc : Bool) : (v : Value) → v.Sorted → (v.encode esc).toValue = .ok v
  | .null, _ => rfl
  | .bool _, _ => rfl
  | .number f, _ => by simp [Value.encode, Syn.toValue, parseFloat_formatFloat]
  | .string s, _ => by simp [Value.encode, Syn.toValue, unquote_quoteBody]
  | .array [], _ => rfl
  | .array (v :: vs), h => by
    simp only [Value.Sorted, listSorted] at h
    simp [Value.encode, encodeList, arraySyn, Syn.toValue, elemValue, bare,
      v.toValue_encode esc h.1, elemsValue_encode esc vs h.2]
  | .object [], _ => rfl
  | .object ((k, v) :: kvs), h => by
    simp only [Value.Sorted, entriesSorted] at h
    obtain ⟨hk, hv, hkvs⟩ := h
    have hk' : KeysSorted kvs := (List.pairwise_cons.1 hk).2
    rw [Value.encode, sortByKey_encodeEntries esc hk]
    simp [encodeEntries, objectSyn, Syn.toValue, memberEntry, bareMember, elemValue, bare, unquote_quoteBody,
      v.toValue_encode esc hv, membersEntries_encode esc kvs hkvs, buildMap_of_sorted hk]
theorem elemsValue_encode (esc : Bool) :
    (vs : List Value) → listSorted vs → elemsValue ((encodeList esc vs).map bare) = .ok vs
  | [], _ => rfl
  | v :: vs, h => by
    simp only [listSorted] at h
    simp [encodeList, elemsValue, elemValue, bare, v.toValue_encode esc h.1,
      elemsValue_encode esc vs h.2]
theorem membersEntries_encode (esc : Bool) :
    (kvs : List (List Rune × Value)) → entriesSorted kvs →
      membersEntries ((encodeEntries esc kvs).map (bareMember esc)) = .ok kvs
  | [], _ => rfl
  | (k, v) :: kvs, h => by
    simp only [entriesSorted] at h
    simp [encodeEntries, membersEntries, memberEntry, bareMember, elemValue, bare,
      unquote_quoteBody, v.toValue_encode esc h.1, membersEntries_encode esc kvs h.2]
end

/-- The scanner accepts the encoder's output, newline included, for a value nested at
most `maxNestingDepth` deep. -/
theorem parseText_encoderEncode (esc : Bool) {v : Value} (hd : v.depth ≤ maxNestingDepth) :
    parseText (encoderEncode esc v) = .ok ([], v.encode esc, [0x0A]) := by
  have := parseText_render (show allSpace ([] : Ws) = true from rfl)
    (show allSpace ([0x0A] : Ws) = true from rfl) (v.encode_wf esc)
    (le_trans (v.encode_depth esc) hd)
  simpa [encoderEncode] using this

/-- `json.Compact` of `Encoder.Encode`'s output is the output without its newline. -/
theorem compact_encoderEncode (esc : Bool) {v : Value} (hd : v.depth ≤ maxNestingDepth) :
    compact (encoderEncode esc v) = .ok (v.encode esc).render := by
  simp [compact, parseText_encoderEncode esc hd, v.strip_encode esc]

end UbirchClient.Json
