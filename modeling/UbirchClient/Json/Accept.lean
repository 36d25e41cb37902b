import UbirchClient.Json.Scanner
set_option autoImplicit false

/-!
# JSON text: what the parser accepts

WHAT THIS FILE IS FOR.  `Json/Scanner.lean` shows that the parser accepts the bytes
of every well-formed tree.  This file proves the converse: whatever the parser
accepts is the bytes of a well-formed tree nested at most `maxNestingDepth` deep,
and that tree is the one it returns.  Together the two say that `parseText` decides
the scanner's grammar and reads a text without losing a byte of it.

THE PROPERTY PROVED HERE.  `parseText_sound`: from `parseText d = .ok (w0, t, w1)`
follow `d = w0 ++ t.render ++ w1`, that `w0` and `w1` are whitespace, `t.WF`, and
`t.depth ≤ maxNestingDepth`.  The leaves come first (whitespace, literals, the string
states, the parts of a number), then the descent, by induction on its fuel.
-/

namespace UbirchClient.Json

open UbirchClient.Go

/-! ## Whitespace, literals and strings -/

theorem takeSpace_spec (s : GoString) :
    s = (takeSpace s).1 ++ (takeSpace s).2 ∧ allSpace (takeSpace s).1 = true := by
  induction s with
  | nil => exact ⟨rfl, rfl⟩
  | cons b s ih =>
    by_cases hb : isSpace b = true
    · simp only [takeSpace, hb, if_true, List.cons_append, allSpace, List.all_cons,
        Bool.true_and]
      exact ⟨congrArg (b :: ·) ih.1, ih.2⟩
    · simp [takeSpace, hb, allSpace]

theorem dropLit_sound : ∀ {lit s r : GoString}, dropLit lit s = some r → s = lit ++ r
  | [], _, _, h => Option.some.inj h
  | _ :: _, [], _, h => by cases h
  | c :: lit, b :: s, r, h => by
    simp only [dropLit] at h
    split_ifs at h with hb
    rw [hb, dropLit_sound h, List.cons_append]

theorem litValue_sound {t0 t : Syn} {lit s r : GoString} (h : litValue t0 lit s = .ok (t, r)) :
    t = t0 ∧ s = lit ++ r := by
  simp only [litValue] at h
  split at h
  · rename_i r' hr
    cases h
    exact ⟨rfl, dropLit_sound hr⟩
  · cases h

/-- A string the string states read is a body they accept, then the closing quote. -/
theorem scanStr_sound {st : StrState} {s raw r : GoString} (h : scanStr st s = some (raw, r)) :
    s = raw ++ 0x22 :: r ∧ validFrom st raw = true := by
  induction s generalizing st raw with
  | nil => cases h
  | cons b s ih =>
    simp only [scanStr] at h
    split_ifs at h with hq
    · cases h
      simp [validFrom, hq.1, hq.2]
    · split at h
      · rename_i st' hst
        obtain ⟨p, hp, he⟩ := Option.map_eq_some'.mp h
        cases he
        obtain ⟨h1, h2⟩ := ih hp
        simp only [validFrom, hq, if_false, hst]
        exact ⟨by rw [h1]; rfl, h2⟩
      · cases h

theorem scanString_sound {s raw r : GoString} (h : scanString s = some (raw, r)) :
    s = raw ++ 0x22 :: r ∧ validStr raw = true :=
  scanStr_sound h

/-! ## Numbers -/

theorem digitOf_sound {b : UInt8} {d : Digit} (h : digitOf b = some d) : b = digitByte d := by
  simp only [digitOf] at h
  split_ifs at h with hb
  cases h
  rw [eq_iff_toNat_eq, digitByte_toNat]
  simp only
  omega

theorem takeDigits_spec (s : GoString) :
    s = (takeDigits s).1.map digitByte ++ (takeDigits s).2 := by
  induction s with
  | nil => rfl
  | cons b s ih =>
    simp only [takeDigits]
    split
    · rename_i d hd
      simp only [List.map_cons, List.cons_append, ← ih, digitOf_sound hd]
    · rfl

theorem scanInt_sound {s r : GoString} {i : IntDigits} (h : scanInt s = some (i, r)) :
    s = i.digits.map digitByte ++ r := by
  cases s with
  | nil => cases h
  | cons b s =>
    simp only [scanInt] at h
    split at h
    · rename_i d hd
      split_ifs at h with h0
      · cases h
        simp [digitOf_sound hd, h0]
      · cases h
        simp only [List.map_cons, List.cons_append, digitOf_sound hd, ← takeDigits_spec]
    · cases h

/-- The bytes of a fraction part as `NumLit.emit` writes them. -/
theorem scanFrac_sound {s r : GoString} {f : List Digit} (h : scanFrac s = some (f, r)) :
    s = (if f = [] then [] else 0x2E :: f.map digitByte) ++ r := by
  simp only [scanFrac] at h
  split_ifs at h with hdot hnil
  · obtain ⟨rfl, rfl⟩ : (takeDigits s.tail).1 = f ∧ (takeDigits s.tail).2 = r := by
      simpa [Prod.ext_iff] using h
    rw [if_neg hnil, List.cons_append, ← takeDigits_spec]
    cases s with
    | nil => cases hdot
    | cons b s => simp_all
  · cases h
    rfl

theorem scanExpSign_spec (s : GoString) :
    s = (scanExpSign s).1.emit ++ (scanExpSign s).2 := by
  cases s with
  | nil => rfl
  | cons b s =>
    simp only [scanExpSign, List.head?_cons, Option.some.injEq, List.tail_cons]
    split_ifs <;> simp_all [ExpSign.emit]

theorem scanExp_sound {s r : GoString} {e : Option ExpPart} (h : scanExp s = some (e, r)) :
    s = (e.map ExpPart.emit).getD [] ++ r := by
  cases s with
  | nil => cases h; rfl
  | cons b s =>
    simp only [scanExp] at h
    split_ifs at h with he hd
    · cases h
      have hs := scanExpSign_spec s
      rw [takeDigits_spec (scanExpSign s).2] at hs
      simp only [Option.map_some', Option.getD_some, ExpPart.emit, List.cons_append,
        List.append_assoc, ← hs]
      rcases he with rfl | rfl <;> rfl
    · cases h
      rfl

/-- The number states read exactly the bytes of the literal they return. -/
theorem scanNumber_sound {s r : GoString} {n : NumLit} (h : scanNumber s = some (n, r)) :
    s = n.emit ++ r := by
  simp only [scanNumber, Option.bind_eq_some, Option.map_eq_some'] at h
  obtain ⟨⟨i, ri⟩, hi, ⟨f, rf⟩, hf, ⟨e, re⟩, he, hn⟩ := h
  obtain ⟨rfl, rfl⟩ := Prod.mk.inj hn
  dsimp only at hf he
  have hs := scanInt_sound hi
  rw [scanFrac_sound hf, scanExp_sound he] at hs
  by_cases hm : s.head? = some 0x2D
  · rw [if_pos hm] at hs
    cases s with
    | nil => cases hm
    | cons b s =>
      simp only [List.head?_cons, Option.some.injEq, List.tail_cons] at hm hs
      simp [NumLit.emit, hm, hs]
  · rw [if_neg hm] at hs
    simpa [NumLit.emit, hm] using hs

/-! ## The descent -/

/-- What each function of the descent accepts is the bytes of a well-formed piece,
and, with the open containers, it is nested at most `maxNestingDepth` deep. -/
theorem parse_sound (fuel : Nat) :
    (∀ {depth : Nat} {s r : GoString} {t : Syn}, depth ≤ maxNestingDepth →
      parseValue fuel depth s = .ok (t, r) →
      s = t.render ++ r ∧ t.WF = true ∧ depth + t.depth ≤ maxNestingDepth) ∧
    (∀ {depth : Nat} {s r : GoString} {e : Elem}, depth ≤ maxNestingDepth →
      parseElem fuel depth s = .ok (e, r) →
      s = renderElem e ++ r ∧ elemWF e = true ∧ depth + elemDepth e ≤ maxNestingDepth) ∧
    (∀ {depth : Nat} {s r : GoString} {e : Elem} {es : List Elem}, depth ≤ maxNestingDepth →
      parseElems fuel depth s = .ok (e, es, r) →
      s = renderElem e ++ renderElems es ++ 0x5D :: r ∧ (elemWF e && elemsWF es) = true ∧
        depth + max (elemDepth e) (elemsDepth es) ≤ maxNestingDepth) ∧
    (∀ {depth : Nat} {s r : GoString} {m : Member} {ms : List Member}, depth ≤ maxNestingDepth →
      parseMembers fuel depth s = .ok (m, ms, r) →
      s = renderMember m ++ renderMembers ms ++ 0x7D :: r ∧
        (memberWF m && membersWF ms) = true ∧
        depth + max (memberDepth m) (membersDepth ms) ≤ maxNestingDepth) := by
  induction fuel with
  | zero =>
    refine ⟨?_, ?_, ?_, ?_⟩ <;> intros <;> simp_all [parseValue, parseElem, parseElems, parseMembers]
  | succ fuel ih =>
    obtain ⟨ihv, ihe, ihes, ihms⟩ := ih
    refine ⟨?value, ?elem, ?elems, ?members⟩
    case value =>
      intro depth s r t hd h
      cases s with
      | nil => simp [parseValue] at h
      | cons b s =>
        simp only [parseValue] at h
        split_ifs at h with hn ht hf hq ha had hae ho hod hoe
        · obtain ⟨rfl, rfl⟩ := litValue_sound h
          simp [hn, Syn.render, Syn.WF, Syn.depth, hd]
        · obtain ⟨rfl, rfl⟩ := litValue_sound h
          simp [ht, Syn.render, Syn.WF, Syn.depth, hd]
        · obtain ⟨rfl, rfl⟩ := litValue_sound h
          simp [hf, Syn.render, Syn.WF, Syn.depth, hd]
        · split at h
          · rename_i p hp
            cases h
            obtain ⟨h1, h2⟩ := scanString_sound hp
            simp [hq, h1, h2, Syn.render, Syn.WF, Syn.depth, quoted, hd]
          · cases h
        · cases h
          obtain ⟨h1, h2⟩ := takeSpace_spec s
          refine ⟨?_, h2, by simp only [Syn.depth]; omega⟩
          rw [ha, Syn.render]
          conv_lhs => rw [h1, List.eq_cons_of_mem_head? hae]
          simp
        · split at h
          · rename_i p hp
            obtain ⟨e, es, r'⟩ := p
            cases h
            obtain ⟨h1, h2, h3⟩ := ihes (by omega) hp
            refine ⟨?_, h2, by simp only [Syn.depth]; omega⟩
            rw [ha, h1]
            simp [Syn.render]
          · cases h
        · cases h
          obtain ⟨h1, h2⟩ := takeSpace_spec s
          refine ⟨?_, h2, by simp only [Syn.depth]; omega⟩
          rw [ho, Syn.render]
          conv_lhs => rw [h1, List.eq_cons_of_mem_head? hoe]
          simp
        · split at h
          · rename_i p hp
            obtain ⟨m, ms, r'⟩ := p
            cases h
            obtain ⟨h1, h2, h3⟩ := ihms (by omega) hp
            refine ⟨?_, h2, by simp only [Syn.depth]; omega⟩
            rw [ho, h1]
            simp [Syn.render]
          · cases h
        · split at h
          · rename_i p hp
            cases h
            exact ⟨scanNumber_sound hp, rfl, by simp only [Syn.depth]; omega⟩
          · cases h
    case elem =>
      intro depth s r e hd h
      simp only [parseElem] at h
      split at h
      · rename_i p hp
        cases h
        obtain ⟨h1, h2, h3⟩ := ihv hd hp
        obtain ⟨h4, h5⟩ := takeSpace_spec s
        obtain ⟨h6, h7⟩ := takeSpace_spec p.2
        refine ⟨?_, by simp [elemWF, h2, h5, h7], h3⟩
        conv_lhs => rw [h4, h1, h6]
        simp [renderElem]
      · cases h
    case elems =>
      intro depth s r e es hd h
      simp only [parseElems] at h
      split at h
      · cases h
      · rename_i p hp
        obtain ⟨e', r'⟩ := p
        obtain ⟨h1, h2, h3⟩ := ihe hd hp
        dsimp only at h
        split_ifs at h with hc hm
        · cases h
          refine ⟨?_, by simp [h2, elemsWF], by simp only [elemsDepth]; omega⟩
          rw [h1, List.eq_cons_of_mem_head? hc]
          simp [renderElems]
        · split at h
          · rename_i q hq
            obtain ⟨e'', es'', r''⟩ := q
            cases h
            obtain ⟨h4, h5, h6⟩ := ihes hd hq
            refine ⟨?_, by simp only [elemsWF, h2, h5, Bool.and_self], by
              simp only [elemsDepth] at h6 ⊢; omega⟩
            rw [h1, List.eq_cons_of_mem_head? hm, h4]
            simp [renderElems]
          · cases h
    case members =>
      intro depth s r m ms hd h
      simp only [parseMembers] at h
      split_ifs at h with hq
      split at h
      · cases h
      · rename_i k hk
        obtain ⟨kraw, krest⟩ := k
        split_ifs at h with hcol
        split at h
        · cases h
        · rename_i p hp
          obtain ⟨e', r'⟩ := p
          obtain ⟨h1, h2, h3⟩ := ihe hd hp
          obtain ⟨s1, s2⟩ := takeSpace_spec s
          obtain ⟨k1, k2⟩ := scanString_sound hk
          obtain ⟨c1, c2⟩ := takeSpace_spec krest
          have hs : s = renderMember ((takeSpace s).1, kraw, (takeSpace krest).1, e') ++ r' := by
            conv_lhs => rw [s1, List.eq_cons_of_mem_head? hq, k1, c1,
              List.eq_cons_of_mem_head? hcol, h1]
            simp [renderMember, quoted]
          have hwf : memberWF ((takeSpace s).1, kraw, (takeSpace krest).1, e') = true := by
            simp [memberWF, s2, k2, c2, h2]
          dsimp only at h
          split_ifs at h with hc hm
          · cases h
            refine ⟨?_, by simp [hwf, membersWF], by
              simp only [memberDepth, membersDepth]; omega⟩
            conv_lhs => rw [hs, List.eq_cons_of_mem_head? hc]
            simp [renderMembers]
          · split at h
            · rename_i q hq'
              obtain ⟨m'', ms'', r''⟩ := q
              cases h
              obtain ⟨h4, h5, h6⟩ := ihms hd hq'
              refine ⟨?_, by simp only [membersWF, hwf, h5, Bool.and_self], by
                simp only [memberDepth, membersDepth] at h3 h6 ⊢; omega⟩
              conv_lhs => rw [hs, List.eq_cons_of_mem_head? hm, h4]
              simp [renderMembers]
            · cases h

/-- What `checkValid` accepts is a well-formed tree, nested at most
`maxNestingDepth` deep, between two runs of whitespace; and it is that tree. -/
theorem parseText_sound {d : GoString} {w0 w1 : Ws} {t : Syn}
    (h : parseText d = .ok (w0, t, w1)) :
    d = w0 ++ t.render ++ w1 ∧ allSpace w0 = true ∧ allSpace w1 = true ∧ t.WF = true ∧
      t.depth ≤ maxNestingDepth := by
  simp only [parseText] at h
  split at h
  · cases h
  · rename_i t' r hp
    split_ifs at h with hr
    cases h
    obtain ⟨h1, h2, h3⟩ := (parse_sound _).1 (Nat.zero_le _) hp
    obtain ⟨s1, s2⟩ := takeSpace_spec d
    obtain ⟨r1, r2⟩ := takeSpace_spec r
    refine ⟨?_, s2, r2, h2, by omega⟩
    conv_lhs => rw [s1, h1, r1, hr]
    simp

end UbirchClient.Json
