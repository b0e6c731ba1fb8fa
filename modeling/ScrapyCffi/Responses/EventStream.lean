import Mathlib.Algebra.Order.Ring.Nat
import Mathlib.Data.List.DropRight

/-!
# Server-sent events

`StreamResponse.aiter_sse`, `core/downloader/internet/response.py:134–181`. A line is the list of
its characters. What Python knows of digits, and the longest digit string `int` converts, are
parameters.
-/

namespace ScrapyCffi.Responses

/-- A text. -/
abbrev Text := List Char

/-- The digits of `str.isdigit`, and those `int` reads, with their values; a superscript is one
of the former only. -/
structure Digits where
  isDigit : Char → Bool
  decimal : Char → Option Nat
  ascii : ∀ c, c.toNat < 128 →
    isDigit c = c.isDigit ∧ decimal c = if c.isDigit then some (c.toNat - 48) else none
  isDigit_of_decimal : ∀ c n, decimal c = some n → isDigit c = true

/-- `SSEEvent`, `response.py:9–16`. -/
@[ext]
structure SSEEvent where
  data : Text
  event : Text
  id : Option Text
  retry : Option Nat
  deriving DecidableEq

/-- The `ValueError` of the size bound, and the one `int` raises. -/
inductive SseError
  | eventSize
  | int
  deriving DecidableEq

/-- The local variables of `aiter_sse`. -/
@[ext]
structure Parser where
  dataLines : List Text
  eventName : Text
  eventId : Option Text
  retry : Option Nat
  eventSize : Nat

/-- What the variables are before the first line. -/
def Parser.initial : Parser where
  dataLines := []
  eventName := "message".toList
  eventId := none
  retry := none
  eventSize := 0

/-- `line.rstrip("\r")`. -/
def stripCr (line : Text) : Text := line.rdropWhile (· = '\r')

/-- The text before the first colon of a line. -/
def fieldName (line : Text) : Text := line.takeWhile (· ≠ ':')

/-- The text behind the first colon of a line, without one leading space. -/
def fieldValue (line : Text) : Text :=
  match line.dropWhile (· ≠ ':') with
  | ':' :: ' ' :: value => value
  | _ :: value => value
  | [] => []

/-- `len(value.encode("utf-8"))`. -/
def utf8Length (value : Text) : Nat := (value.map Char.utf8Size).sum

/-- `value.isdigit()`. -/
def Digits.isDigits (digits : Digits) (value : Text) : Bool :=
  !value.isEmpty && value.all digits.isDigit

/-- `int(value)` of digits. -/
def Digits.int (digits : Digits) (longest : Option Nat) (value : Text) : Option Nat :=
  if longest.any (· < value.length) then none
  else (value.mapM digits.decimal).map fun values ↦ values.foldl (fun n d ↦ 10 * n + d) 0

/-- `"\n".join(lines)`. -/
def joinLines (lines : List Text) : Text := List.intercalate ['\n'] lines

/-- The event of the variables, `response.py:146–151` and `176–181`. -/
def Parser.event (s : Parser) : Option SSEEvent :=
  if s.dataLines = [] then none
  else some
    { data := joinLines s.dataLines
      event := s.eventName
      id := s.eventId
      retry := s.retry }

/-- What a blank line leaves, `response.py:152–155`. -/
def Parser.reset (s : Parser) : Parser := { Parser.initial with eventId := s.eventId }

variable (digits : Digits) (longest : Option Nat) (maxEventSize : Nat)

/-- A line that is not blank, without its carriage returns: `response.py:157–173`. -/
def Parser.line (s : Parser) (line : Text) : Except SseError Parser :=
  if line.head? = some ':' then .ok s
  else
    let field := fieldName line
    let value := fieldValue line
    let s := { s with eventSize := s.eventSize + utf8Length value }
    if maxEventSize < s.eventSize then .error .eventSize
    else if field = "data".toList then .ok { s with dataLines := s.dataLines ++ [value] }
    else if field = "event".toList then
      .ok { s with eventName := if value = [] then "message".toList else value }
    else if field = "id".toList ∧ Char.ofNat 0 ∉ value then .ok { s with eventId := some value }
    else if field = "retry".toList ∧ digits.isDigits value then
      match digits.int longest value with
      | some n => .ok { s with retry := some n }
      | none => .error .int
    else .ok s

/-- The events an iterator yields, and the error it raises in the end. -/
structure Yielded where
  events : List SSEEvent
  error : Option SseError
  deriving DecidableEq

/-- The loop over the lines, `response.py:142–181`. -/
def Parser.run (s : Parser) : List Text → Yielded
  | [] => { events := s.event.toList, error := none }
  | line :: rest =>
    if stripCr line = [] then
      let yielded := s.reset.run rest
      { yielded with events := s.event.toList ++ yielded.events }
    else
      match s.line digits longest maxEventSize (stripCr line) with
      | .ok t => t.run rest
      | .error e => { events := [], error := some e }

/-- `aiter_sse`. -/
def aiterSse (lines : List Text) : Yielded :=
  Parser.initial.run digits longest maxEventSize lines

end ScrapyCffi.Responses
