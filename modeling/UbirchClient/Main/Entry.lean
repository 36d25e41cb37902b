import UbirchClient.Go.Basic
import Mathlib.Algebra.Order.BigOperators.Group.List
import Mathlib.Tactic.Ring
set_option autoImplicit false

/-!
# The entry points: `getArgs` and `timeTrack`

WHAT THIS FILE IS FOR.  `main` (`main/main.go`) reads its command line with
`getArgs`: each argument after the program name is the flag `migrate`, the flag `88`
(serve on port 8088), or else the configuration directory, a later directory replacing
an earlier one.  The older `main` that closes `main/protocol.go` times the chaining
requests with `timeTrack`: it ranges over the durations a channel delivers, adds them
up, counts them and keeps the largest, and when the channel is closed it logs the
average and the maximum in milliseconds.

MACHINE INTEGERS.  A `time.Duration` is an `int64` of nanoseconds and the count is an
`int64`: `timeSum += dur` and `totalTracked++` wrap modulo 2^64 (`wrap64`), and
`Milliseconds` and `/` truncate towards zero (`Int.tdiv`).  A duration is any `Int`;
the theorems say which range they need.

THE PROPERTIES PROVED HERE.  `getArgs_eq`: the flags are recognised wherever they
stand, and the directory is the last argument that is neither flag.
`timeTrack_avg_le_max`: for durations that are not negative, fewer than 2^63 of them
and less than 2^63 ns (292 years) in total, `timeTrack` logs their count, the average
of their total in milliseconds and their maximum in milliseconds, and the average lies
between zero and the maximum.  Past 2^63 ns the sum wraps and the logged average is
negative (the example after the theorem).
-/

namespace UbirchClient.Main

open UbirchClient.Go

/-! ## `getArgs` -/

/-- `vars.MigrateArg`. -/
def migrateArg : GoString := ascii "migrate"

/-- The loop of `getArgs` over `os.Args[1:]`, with `configDir`, `migrate` and
`diffPort`. -/
def getArgsLoop : GoString × Bool × Bool → List GoString → GoString × Bool × Bool
  | acc, [] => acc
  | (configDir, migrate, diffPort), arg :: rest =>
    if arg = migrateArg then getArgsLoop (configDir, true, diffPort) rest
    else if arg = ascii "88" then getArgsLoop (configDir, migrate, true) rest
    else getArgsLoop (arg, migrate, diffPort) rest

/-- `getArgs`, on `os.Args`. -/
def getArgs (args : List GoString) : GoString × Bool × Bool :=
  if args.length > 1 then getArgsLoop ([], false, false) args.tail else ([], false, false)

/-- An argument that is neither flag. -/
def isDirArg (arg : GoString) : Bool := arg ∉ [migrateArg, ascii "88"]

theorem getArgsLoop_eq (args : List GoString) :
    ∀ configDir migrate diffPort, getArgsLoop (configDir, migrate, diffPort) args =
      (((args.filter isDirArg).getLast?).getD configDir,
        migrate || decide (migrateArg ∈ args), diffPort || decide (ascii "88" ∈ args)) := by
  induction args with
  | nil => intro _ _ _; simp [getArgsLoop]
  | cons arg rest ih =>
    intro configDir migrate diffPort
    have h88 : ascii "88" ≠ migrateArg := by decide
    by_cases hm : arg = migrateArg
    · subst hm
      simp [getArgsLoop, ih, isDirArg, h88, Ne.symm h88]
    · by_cases h8 : arg = ascii "88"
      · subst h8
        simp [getArgsLoop, ih, isDirArg, h88, Ne.symm h88]
      · have hd : isDirArg arg = true := by simp [isDirArg, hm, h8]
        simp only [getArgsLoop, if_neg hm, if_neg h8, ih, List.filter_cons_of_pos hd,
          List.mem_cons, Ne.symm hm, Ne.symm h8, decide_False, Bool.false_or]
        cases h : (rest.filter isDirArg).getLast? <;> simp [List.getLast?_cons, h]

/-- `getArgs`: `migrate` and `88` are recognised wherever they stand, and the
configuration directory is the last argument that is neither, `""` when there is none. -/
theorem getArgs_eq (args : List GoString) :
    getArgs args = (((args.tail.filter isDirArg).getLast?).getD [],
      decide (migrateArg ∈ args.tail), decide (ascii "88" ∈ args.tail)) := by
  unfold getArgs
  split
  · rw [getArgsLoop_eq]; simp
  · rename_i h
    have : args.tail = [] := List.eq_nil_of_length_eq_zero (by simp; omega)
    simp [this]

/-! ## `timeTrack` -/

/-- `int64` addition: the two's-complement wrap onto `[-2^63, 2^63)`. -/
def wrap64 (x : Int) : Int :=
  (x + 9223372036854775808) % 18446744073709551616 - 9223372036854775808

theorem wrap64_of_lt {x : Int} (h0 : -9223372036854775808 ≤ x) (h1 : x < 9223372036854775808) :
    wrap64 x = x := by
  unfold wrap64; omega

/-- What `timeTrack` keeps while it ranges over the channel. -/
structure Tracker where
  maxDur : Int
  timeSum : Int
  totalTracked : Int
  deriving DecidableEq, Repr

/-- One duration received: `timeSum += dur; totalTracked++; if dur > maxDur { maxDur = dur }`. -/
def Tracker.step (t : Tracker) (dur : Int) : Tracker :=
  ⟨if dur > t.maxDur then dur else t.maxDur, wrap64 (t.timeSum + dur), wrap64 (t.totalTracked + 1)⟩

/-- `Duration.Milliseconds`. -/
def milliseconds (d : Int) : Int := d.tdiv 1000000

/-- `timeTrack`, on the durations the channel delivers before it is closed: what it
logs, the count, the average and the maximum in milliseconds, or nothing when no
duration came. -/
def timeTrack (durs : List Int) : Option (Int × Int × Int) :=
  let t := durs.foldl Tracker.step ⟨0, 0, 0⟩
  if t.totalTracked > 0 then
    some (t.totalTracked, (milliseconds t.timeSum).tdiv t.totalTracked, milliseconds t.maxDur)
  else none

/-- The loop of `timeTrack` while neither `int64` wraps: the largest duration, the
total and the count. -/
theorem foldl_step_of_no_wrap {durs : List Int} (hpos : ∀ d ∈ durs, 0 ≤ d) :
    ∀ {m s n : Int}, 0 ≤ s → 0 ≤ n → s + durs.sum < 9223372036854775808 →
      n + durs.length < 9223372036854775808 →
      durs.foldl Tracker.step ⟨m, s, n⟩ = ⟨durs.foldl max m, s + durs.sum, n + durs.length⟩ := by
  induction durs with
  | nil => intro m s n _ _ _ _; simp
  | cons d rest ih =>
    intro m s n hs hn hsum hlen
    have hd := hpos d (List.mem_cons_self _ _)
    have hr := List.sum_nonneg fun x hx => hpos x (List.mem_cons_of_mem _ hx)
    simp only [List.sum_cons, List.length_cons, Nat.cast_add, Nat.cast_one] at hsum hlen
    have hstep : Tracker.step ⟨m, s, n⟩ d = ⟨max m d, s + d, n + 1⟩ := by
      simp only [Tracker.step, wrap64_of_lt (by omega : -9223372036854775808 ≤ s + d) (by omega),
        wrap64_of_lt (by omega : -9223372036854775808 ≤ n + 1) (by omega), Tracker.mk.injEq,
        and_true]
      split <;> omega
    rw [List.foldl_cons, hstep, ih (fun x hx => hpos x (List.mem_cons_of_mem _ hx)) (by omega)
      (by omega) (by omega) (by omega)]
    simp only [List.foldl_cons, List.sum_cons, List.length_cons, Nat.cast_add, Nat.cast_one,
      Tracker.mk.injEq, true_and]
    constructor <;> ring

theorem le_foldl_max {d : Int} : ∀ {l : List Int} {m : Int}, (d ∈ l ∨ d ≤ m) → d ≤ l.foldl max m
  | [], _, h => by simpa using h
  | x :: l, m, h => by
    rw [List.foldl_cons]
    refine le_foldl_max ?_
    rcases h with h | h
    · rcases List.mem_cons.1 h with rfl | h
      · exact .inr (le_max_right _ _)
      · exact .inl h
    · exact .inr (le_trans h (le_max_left _ _))

theorem foldl_max_nonneg (l : List Int) : 0 ≤ l.foldl max 0 := le_foldl_max (.inr le_rfl)

/-- An average of values at most `M`, taken after truncating the total to whole
milliseconds, is at most `M` in whole milliseconds. -/
theorem avg_ms_le {S L M : Int} (hL : 0 < L) (hSM : S ≤ L * M) :
    (S / 1000000) / L ≤ M / 1000000 := by
  have hK : (0 : Int) < 1000000 := by decide
  refine (Int.le_ediv_iff_mul_le hK).2 (Int.le_of_mul_le_mul_right ?_ hL)
  calc (S / 1000000) / L * 1000000 * L = (S / 1000000) / L * L * 1000000 := by ring
    _ ≤ S / 1000000 * 1000000 :=
      Int.mul_le_mul_of_nonneg_right (Int.ediv_mul_le _ (by omega)) (by omega)
    _ ≤ S := Int.ediv_mul_le _ (by omega)
    _ ≤ L * M := hSM
    _ = M * L := by ring

/-- While the total and the count fit in an `int64`, `timeTrack` logs the count, the
average total in milliseconds and the maximum in milliseconds, and the average lies
between zero and the maximum. -/
theorem timeTrack_avg_le_max {durs : List Int} (hne : durs ≠ []) (hpos : ∀ d ∈ durs, 0 ≤ d)
    (hsum : durs.sum < 9223372036854775808) (hlen : durs.length < 9223372036854775808) :
    timeTrack durs = some ((durs.length : Int), (milliseconds durs.sum).tdiv durs.length,
        milliseconds (durs.foldl max 0)) ∧
      0 ≤ (milliseconds durs.sum).tdiv durs.length ∧
      (milliseconds durs.sum).tdiv durs.length ≤ milliseconds (durs.foldl max 0) := by
  have hL : (0 : Int) < durs.length := by
    have := List.length_pos.2 hne; omega
  have hS : 0 ≤ durs.sum := List.sum_nonneg hpos
  have hM := foldl_max_nonneg durs
  have hSM : durs.sum ≤ durs.length * durs.foldl max 0 := by
    simpa using List.sum_le_card_nsmul durs _ fun d hd => le_foldl_max (.inl hd)
  have hms : 0 ≤ milliseconds durs.sum := Int.tdiv_nonneg hS (by decide)
  refine ⟨?_, Int.tdiv_nonneg hms hL.le, ?_⟩
  · simp only [timeTrack, foldl_step_of_no_wrap hpos le_rfl le_rfl (by simpa using hsum)
      (by omega), zero_add, if_pos hL]
  · rw [milliseconds, milliseconds, Int.tdiv_eq_ediv hS (by decide), Int.tdiv_eq_ediv hM (by decide),
      Int.tdiv_eq_ediv (Int.ediv_nonneg hS (by decide)) hL.le]
    exact avg_ms_le hL hSM

example : ((timeTrack [4611686018427387904, 4611686018427387904]).map fun r => decide (r.2.1 < 0)) =
    some true := by decide

theorem timeTrack_avg_le_max_three :
    [3000000, 1000000, 2000000] ≠ [] ∧ (∀ d ∈ [3000000, 1000000, (2000000 : Int)], 0 ≤ d) ∧
      [3000000, 1000000, (2000000 : Int)].sum < 9223372036854775808 ∧
      [3000000, 1000000, (2000000 : Int)].length < 9223372036854775808 ∧
      (timeTrack [3000000, 1000000, 2000000] = some (3, 2, 3) ∧ (0 : Int) ≤ 2 ∧ (2 : Int) ≤ 3) :=
  ⟨by decide, by decide, by decide, by decide,
    @timeTrack_avg_le_max [3000000, 1000000, 2000000] (by decide) (by decide) (by decide) (by decide)⟩

end UbirchClient.Main
