import UbirchClient.Go.Basic
set_option autoImplicit false

/-!
# The auth table: `Postgres.GetAuthKeysMaps`

WHAT THIS FILE IS FOR.  The Postgres store of the client reads the table `auth`,
`SELECT "uuid", "key", "auth_token" FROM "auth"`, into two maps, from UUID to auth
token and from UUID to key.  It scans the rows in the order `rows.Next()` gives them
and writes each into both maps.  At the first row that does not scan it returns the
maps as they are, with that error; after the last row it returns `rows.Err()`.  A
query that fails returns the two empty maps and its error.

WHAT IS A PARAMETER.  The database is not in the sources: what the query returns is a
`Rows` value, the result of each row's `Scan` and the error `rows.Err()` reports after
the last, of any error type.

THE PROPERTY PROVED HERE.  `getAuthKeysMaps_spec`: whatever the query returns, the
two maps have the same keys in the same order, and they are the UUIDs of the rows
scanned before the first failure; each maps to the token and the key of the last
such row with that UUID; and the error is the query's, the first failed scan's, or
`rows.Err()`.
-/

namespace UbirchClient.Database

open UbirchClient.Go

/-- A row of `auth`, as `rows.Scan(&uuid, &key, &authToken)` reads it. -/
structure AuthRow where
  uuid : GoString
  key : GoString
  authToken : GoString
  deriving DecidableEq, Repr

/-- What `db.conn.Query` returns: each row's `Scan`, in order, and `rows.Err()`. -/
structure Rows (ε : Type) where
  scans : List (Except ε AuthRow)
  err : Option ε

variable {ε : Type}

/-- The `for rows.Next()` loop of `GetAuthKeysMaps`; `none` is a `nil` error. -/
def getAuthKeysMapsLoop : GoMap GoString → GoMap GoString → List (Except ε AuthRow) →
    GoMap GoString × GoMap GoString × Option ε
  | authmap, keysmap, [] => (authmap, keysmap, none)
  | authmap, keysmap, .error err :: _ => (authmap, keysmap, some err)
  | authmap, keysmap, .ok row :: rest =>
    getAuthKeysMapsLoop (authmap.insert row.uuid row.authToken) (keysmap.insert row.uuid row.key) rest

/-- `Postgres.GetAuthKeysMaps`. -/
def getAuthKeysMaps (query : Except ε (Rows ε)) : GoMap GoString × GoMap GoString × Option ε :=
  match query with
  | .error err => (GoMap.empty, GoMap.empty, some err)
  | .ok rows =>
    match getAuthKeysMapsLoop GoMap.empty GoMap.empty rows.scans with
    | (authmap, keysmap, none) => (authmap, keysmap, rows.err)
    | r => r

/-! ## What the loop writes -/

/-- The rows scanned before the first that fails. -/
def scanned : List (Except ε AuthRow) → List AuthRow
  | [] => []
  | .error _ :: _ => []
  | .ok row :: rest => row :: scanned rest

/-- The error of the first row that fails to scan. -/
def firstScanError : List (Except ε AuthRow) → Option ε
  | [] => none
  | .error err :: _ => some err
  | .ok _ :: rest => firstScanError rest

/-- The rows `GetAuthKeysMaps` writes: none when the query fails. -/
def rowsRead : Except ε (Rows ε) → List AuthRow
  | .error _ => []
  | .ok rows => scanned rows.scans

/-- The error `GetAuthKeysMaps` returns. -/
def errorRead : Except ε (Rows ε) → Option ε
  | .error err => some err
  | .ok rows => (firstScanError rows.scans).or rows.err

/-- The last of `rows` with UUID `u`. -/
def lastRow (rows : List AuthRow) (u : GoString) : Option AuthRow :=
  rows.reverse.find? fun row => row.uuid = u

theorem lastRow_cons (row : AuthRow) (rows : List AuthRow) (u : GoString) :
    lastRow (row :: rows) u = (lastRow rows u).or (if row.uuid = u then some row else none) := by
  by_cases h : row.uuid = u <;> simp [lastRow, List.find?_append, h]

/-- Writing the rows one after the other into a map. -/
def insertRows (f : AuthRow → GoString) (m : GoMap GoString) (rows : List AuthRow) : GoMap GoString :=
  rows.foldl (fun m row => m.insert row.uuid (f row)) m

/-- The loop writes the scanned rows into both maps and stops at the first failure. -/
theorem getAuthKeysMapsLoop_eq (scans : List (Except ε AuthRow)) :
    ∀ authmap keysmap, getAuthKeysMapsLoop authmap keysmap scans =
      (insertRows AuthRow.authToken authmap (scanned scans), insertRows AuthRow.key keysmap (scanned scans),
        firstScanError scans) := by
  induction scans with
  | nil => intro _ _; rfl
  | cons s rest ih =>
    intro authmap keysmap
    cases s with
    | error => rfl
    | ok row => exact ih _ _

/-- A UUID reads as the value of its last row written, or as before. -/
theorem get?_insertRows (f : AuthRow → GoString) (u : GoString) (rows : List AuthRow) :
    ∀ m : GoMap GoString, (insertRows f m rows).get? u = ((lastRow rows u).map f).or (m.get? u) := by
  induction rows with
  | nil => intro m; rfl
  | cons row rows ih =>
    intro m
    simp only [insertRows, List.foldl_cons] at ih ⊢
    rw [ih, GoMap.get?_insert, lastRow_cons]
    by_cases e : row.uuid = u
    · subst e; cases lastRow rows row.uuid <;> simp
    · cases lastRow rows u <;> simp [e, Ne.symm e]

/-- Two maps with the same keys, written the same rows, keep the same keys. -/
theorem keys_insertRows (f g : AuthRow → GoString) (rows : List AuthRow) :
    ∀ m m' : GoMap GoString, m.keys = m'.keys → (insertRows f m rows).keys = (insertRows g m' rows).keys := by
  induction rows with
  | nil => intro _ _ h; exact h
  | cons row rows ih =>
    intro m m' h
    exact ih _ _ (by rw [GoMap.keys_insert, GoMap.keys_insert, h])

/-- The keys written are the UUIDs of the rows, each once. -/
theorem mem_keys_insertRows (f : AuthRow → GoString) (u : GoString) (rows : List AuthRow) :
    ∀ m : GoMap GoString, u ∈ (insertRows f m rows).keys ↔ u ∈ m.keys ∨ ∃ row ∈ rows, row.uuid = u := by
  induction rows with
  | nil => intro m; simp [insertRows]
  | cons row rows ih =>
    intro m
    simp only [insertRows, List.foldl_cons] at ih ⊢
    rw [ih, GoMap.mem_keys_insert]
    simp only [List.mem_cons, or_and_right, exists_or, exists_eq_left, or_assoc, @eq_comm _ u row.uuid]

/-- Whatever the query returns, `GetAuthKeysMaps` returns two maps with the same keys
in the same order, the UUIDs of the rows it read; each UUID maps to the token and the
key of the last row with it; and the error is the query's, the first failed scan's,
or `rows.Err()`. -/
theorem getAuthKeysMaps_spec (query : Except ε (Rows ε)) (u : GoString) :
    (getAuthKeysMaps query).1.keys = (getAuthKeysMaps query).2.1.keys ∧
    (u ∈ (getAuthKeysMaps query).1.keys ↔ ∃ row ∈ rowsRead query, row.uuid = u) ∧
    (getAuthKeysMaps query).1.get? u = (lastRow (rowsRead query) u).map AuthRow.authToken ∧
    (getAuthKeysMaps query).2.1.get? u = (lastRow (rowsRead query) u).map AuthRow.key ∧
    (getAuthKeysMaps query).2.2 = errorRead query := by
  cases query with
  | error err => simp [getAuthKeysMaps, rowsRead, errorRead, lastRow, GoMap.get?, GoMap.keys, GoMap.empty]
  | ok rows =>
    have he : getAuthKeysMaps (.ok rows) =
        (insertRows AuthRow.authToken GoMap.empty (scanned rows.scans),
          insertRows AuthRow.key GoMap.empty (scanned rows.scans),
          (firstScanError rows.scans).or rows.err) := by
      simp only [getAuthKeysMaps, getAuthKeysMapsLoop_eq]
      cases firstScanError rows.scans <;> rfl
    rw [he, rowsRead, errorRead]
    refine ⟨keys_insertRows _ _ _ _ _ rfl, ?_, ?_, ?_, rfl⟩
    · simpa using mem_keys_insertRows AuthRow.authToken u _ GoMap.empty
    · rw [get?_insertRows]; cases lastRow _ u <;> rfl
    · rw [get?_insertRows]; cases lastRow _ u <;> rfl

example :
    (getAuthKeysMaps (.ok ⟨[.ok ⟨[1], [2], [3]⟩, .ok ⟨[1], [4], [5]⟩], none⟩ : Except Unit (Rows Unit))).1.get?
      [1] = some [5] := by decide

end UbirchClient.Database
