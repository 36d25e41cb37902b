import UbirchClient.Json.Accept
import UbirchClient.Json.Value
set_option autoImplicit false

/-!
# `json.Unmarshal` and `Decoder.Decode` into typed Go values

WHAT THIS FILE IS FOR.  The configuration loader decodes JSON into Go types, not into
`interface{}`: the legacy auth map into a `map[string][]string` with `json.Unmarshal`,
and the identities file into a `[]map[string]string` with
`json.NewDecoder(f).Decode`.  The decoder walks the tree the scanner accepted and
stores each value into a Go value of the target type:
  * `null` sets a map or a slice to `nil` and leaves a string as it was (the zero
    `""` wherever it is met here);
  * a string goes into a `string` as its unquoted bytes;
  * an object goes into a map member by member, `m[key] = value`, so a later
    duplicate key replaces an earlier one;
  * an array goes into a slice element by element;
  * any other value is an `UnmarshalTypeError` naming the JSON kind and the Go type.
Go saves the first type error, skips the value, finishes the walk and returns the
saved error; the walk here stops at the first one, which returns the same error.
No target type here holds a number, so a number is always a type error.

`Decoder.Decode` reads one value from the stream and leaves what follows it unread;
`decodeFirst` parses the first value and ignores the rest.  A stream holding only
whitespace is `io.EOF`.

DEVIATION DISCLOSED.  When the stream ends inside a value, `Decoder.Decode` returns
`io.ErrUnexpectedEOF`; here that input gets the scanner's error.
-/

namespace UbirchClient.Json

open UbirchClient.Go

/-- `UnmarshalTypeError`: `json: cannot unmarshal <value> into Go value of type <goType>`. -/
structure UnmarshalTypeError where
  value : GoString
  goType : GoString
  deriving DecidableEq

/-- Why storing an accepted tree into a typed Go value failed. -/
inductive TypedError where
  | type (e : UnmarshalTypeError)
  /-- `unquote` refused a string the scanner accepted (Go panics with
  `phasePanicMsg`; `unquote_isSome` shows it never happens) -/
  | phase
  deriving DecidableEq

/-- The kind of a JSON value, as `UnmarshalTypeError` spells it. -/
def Syn.kind : Syn → GoString
  | .null => ascii "null"
  | .bool _ => ascii "bool"
  | .num _ => ascii "number"
  | .str _ => ascii "string"
  | .arr0 _ | .arr _ _ => ascii "array"
  | .obj0 _ | .obj _ _ => ascii "object"

/-- A value stored into a `string` that holds `""`. -/
def Syn.toStr : Syn → Except TypedError GoString
  | .null => .ok []
  | .str raw =>
    match unquote raw with
    | some s => .ok (utf8Bytes s)
    | none => .error .phase
  | t => .error (.type ⟨t.kind, ascii "string"⟩)

/-- Array elements stored into a slice, each by `val`. -/
def elemsInto {α : Type} (val : Syn → Except TypedError α) : List Elem → Except TypedError (List α)
  | [] => .ok []
  | (_, t, _) :: es =>
    match val t, elemsInto val es with
    | .ok x, .ok xs => .ok (x :: xs)
    | .error e, _ => .error e
    | .ok _, .error e => .error e

/-- A value stored into a `nil` slice of Go type `goType`, each element by `val`. -/
def Syn.toSlice {α : Type} (val : Syn → Except TypedError α) (goType : GoString) :
    Syn → Except TypedError (List α)
  | .null => .ok []
  | .arr0 _ => .ok []
  | .arr e es => elemsInto val (e :: es)
  | t => .error (.type ⟨t.kind, goType⟩)

/-- Object members stored into the map `m` in order, each value by `val`. -/
def membersInto {α : Type} (val : Syn → Except TypedError α) :
    GoMap α → List Member → Except TypedError (GoMap α)
  | m, [] => .ok m
  | m, (_, k, _, (_, t, _)) :: ms =>
    match unquote k, val t with
    | none, _ => .error .phase
    | some key, .ok v => membersInto val (m.insert (utf8Bytes key) v) ms
    | some _, .error e => .error e

/-- A value stored into a `nil` map of Go type `goType`, each member's value by `val`. -/
def Syn.toMap {α : Type} (val : Syn → Except TypedError α) (goType : GoString) :
    Syn → Except TypedError (GoMap α)
  | .null => .ok GoMap.empty
  | .obj0 _ => .ok GoMap.empty
  | .obj m ms => membersInto val GoMap.empty (m :: ms)
  | t => .error (.type ⟨t.kind, goType⟩)

/-- Why `json.Unmarshal` or `Decoder.Decode` into a typed value failed. -/
inductive TypedUnmarshalError where
  /-- `io.EOF`: the stream holds no value (`Decoder.Decode` only) -/
  | eof
  /-- the scanner rejected the text -/
  | checkValid (e : SyntaxError)
  /-- storing the value failed -/
  | decode (e : TypedError)
  deriving DecidableEq

/-- `json.Unmarshal(data, &v)`, with `decode` storing into `v`. -/
def unmarshalInto {α : Type} (decode : Syn → Except TypedError α) (data : GoString) :
    Except TypedUnmarshalError α :=
  match parseText data with
  | .error e => .error (.checkValid e)
  | .ok (_, t, _) =>
    match decode t with
    | .ok v => .ok v
    | .error e => .error (.decode e)

/-- `json.NewDecoder(r).Decode(&v)`, with `decode` storing into `v`: the first value of
the stream. -/
def decodeFirst {α : Type} (decode : Syn → Except TypedError α) (data : GoString) :
    Except TypedUnmarshalError α :=
  if (takeSpace data).2 = [] then .error .eof
  else
    match parseValue (2 * data.length + 1) 0 (takeSpace data).2 with
    | .error e => .error (.checkValid e)
    | .ok (t, _) =>
      match decode t with
      | .ok v => .ok v
      | .error e => .error (.decode e)

end UbirchClient.Json
