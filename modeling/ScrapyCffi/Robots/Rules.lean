import Mathlib.Data.List.DropRight
import Mathlib.Data.List.Infix
import ScrapyCffi.Base.Dict

/-!
# Robots rules

`RobotsTxtRules` and `parse_robots_txt` (`utils/robot.py:10–64`). A text is the list of its
characters; `str.lower` is a parameter, as is the path of `urlparse(url)`.
-/

namespace ScrapyCffi.Robots

open ScrapyCffi.Base

/-- A text. -/
abbrev Text := List Char

/-- The kind of a rule. -/
inductive RuleType
  | allow
  | disallow
  deriving DecidableEq

/-- A rule: its kind and the path it is for. -/
abbrev Rule := RuleType × Text

/-! ## Matching -/

/-- `matched_rule` and `matched_length`. -/
structure Match where
  rule : Option RuleType
  length : Int

/-- One turn of the loop in `is_allowed`. -/
def Match.step (path : Text) (m : Match) (rule : Rule) : Match :=
  if rule.2 <+: path then
    if m.length < rule.2.length then ⟨some rule.1, rule.2.length⟩ else m
  else m

/-- `parsed_url.path or "/"`. -/
def pathOrRoot (urlPath : Text) : Text := if urlPath = [] then ['/'] else urlPath

/-- `is_allowed` for the path of a URL, `robot.py:15–27`. -/
def isAllowed (rules : List Rule) (urlPath : Text) : Bool :=
  (rules.foldl (Match.step (pathOrRoot urlPath)) ⟨none, -1⟩).rule ≠ some .disallow

/-! ## Lines -/

/-- The whitespace of `str.strip` and of `\s`. -/
def isSpace (c : Char) : Bool :=
  let n := c.toNat
  (0x09 ≤ n && n ≤ 0x0d) || (0x1c ≤ n && n ≤ 0x20) || n == 0x85 || n == 0xa0 || n == 0x1680 ||
    (0x2000 ≤ n && n ≤ 0x200a) || n == 0x2028 || n == 0x2029 || n == 0x202f || n == 0x205f ||
    n == 0x3000

/-- A line break of `str.splitlines`. -/
def isLineBreak (c : Char) : Bool :=
  let n := c.toNat
  (0x0a ≤ n && n ≤ 0x0d) || (0x1c ≤ n && n ≤ 0x1e) || n == 0x85 || n == 0x2028 || n == 0x2029

/-- `str.splitlines()`. -/
def splitlines : Text → List Text
  | [] => []
  | '\r' :: '\n' :: rest => [] :: splitlines rest
  | c :: rest =>
    if isLineBreak c then [] :: splitlines rest
    else
      match splitlines rest with
      | [] => [[c]]
      | line :: lines => (c :: line) :: lines

/-- `str.strip()`. -/
def strip (text : Text) : Text := (text.dropWhile isSpace).rdropWhile isSpace

/-- A line of two parts around its first colon: the first part in lower case, which is compared
with ASCII keys only, and the second without whitespace around it. -/
def splitLine (line : Text) : Option (Text × Text) :=
  let line := strip line
  if line = [] ∨ line.head? = some '#' then none
  else
    match line.dropWhile (· ≠ ':') with
    | [] => none
    | _ :: value => some ((line.takeWhile (· ≠ ':')).map Char.toLower, strip value)

/-- The key and the value of the lines that the regular expression matches. -/
inductive Record
  | userAgent (value : Text)
  | rule (rule : Rule)

/-- A line of the text, `robot.py:34–42`; the expression wants a value of one character or more. -/
def readLine (line : Text) : Option Record :=
  match splitLine line with
  | none => none
  | some (key, value) =>
    if value = [] then none
    else if key = "user-agent".toList then some (.userAgent value)
    else if key = "allow".toList then some (.rule (.allow, value))
    else if key = "disallow".toList then some (.rule (.disallow, value))
    else none

/-! ## Blocks -/

/-- `agent_blocks` and `current_agents`. -/
structure Blocks where
  agentBlocks : Dict Text (List Rule)
  currentAgents : List Text

/-- The variables before the first line. -/
def Blocks.initial : Blocks := ⟨Dict.empty, []⟩

variable (lower : Text → Text)

/-- One turn of the loop over the lines, `robot.py:44–51`. -/
def Blocks.step (b : Blocks) : Record → Blocks
  | .userAgent value =>
    let agent := lower value
    { agentBlocks := if b.agentBlocks.get agent = none then b.agentBlocks.set agent []
        else b.agentBlocks
      currentAgents := [agent] }
  | .rule rule =>
    { b with
      agentBlocks := b.currentAgents.foldl (fun blocks agent ↦
        blocks.set agent ((blocks.get agent).getD [] ++ [rule])) b.agentBlocks }

/-- `agent_blocks` after all lines of the text. -/
def agentBlocks (text : Text) : Dict Text (List Rule) :=
  (((splitlines text).filterMap readLine).foldl (Blocks.step lower) Blocks.initial).agentBlocks

/-- `parse_robots_txt`: the rules of the agents whose names are in that of the user agent. -/
def parseRobotsTxt (text userAgent : Text) : List Rule :=
  let blocks := agentBlocks lower text
  let matched := blocks.entries.filter fun block ↦ block.1 <:+: lower userAgent
  if matched ≠ [] then matched.flatMap Prod.snd else (blocks.get ['*']).getD []

end ScrapyCffi.Robots
