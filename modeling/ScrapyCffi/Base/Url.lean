import Mathlib.Data.List.DropRight

/-!
# URLs

`urlparse` and `urlunparse` of `urllib.parse` with their defaults. A text is the list of its
characters. The checks of a network location rest on `unicodedata` and `ipaddress`, which are
parameters; an error is the message of a `ValueError`.
-/

namespace ScrapyCffi.Base.Url

/-- `ParseResult`. -/
structure ParseResult where
  scheme : List Char
  netloc : List Char
  path : List Char
  params : List Char
  query : List Char
  fragment : List Char
  deriving DecidableEq

/-- Which URLs `urlunsplit` gives an empty network location for the sake of their scheme: every one
(Python 3.11.10), or those whose path is empty or absolute (later releases). -/
inductive EmptyNetloc
  | always
  | absolute
  deriving DecidableEq

/-- What `urllib.parse` rests on: `unicodedata.normalize("NFKC", …)`, `ipaddress.ip_address`, which
raises or says whether the address is one of version 4, and the release. -/
structure Platform where
  normalize : List Char → List Char
  ipAddress : List Char → Except String Bool
  emptyNetloc : EmptyNetloc

/-! ## Parsing -/

/-- `uses_params`. -/
def usesParams : List (List Char) :=
  ["", "ftp", "hdl", "prospero", "http", "imap", "https", "shttp", "rtsp", "rtsps", "rtspu", "sip",
    "sips", "mms", "sftp", "tel"].map String.toList

/-- `uses_netloc`. -/
def usesNetloc : List (List Char) :=
  ["", "ftp", "http", "gopher", "nntp", "telnet", "imap", "wais", "file", "mms", "https", "shttp",
    "snews", "prospero", "rtsp", "rtsps", "rtspu", "rsync", "svn", "svn+ssh", "sftp", "nfs", "git",
    "git+ssh", "ws", "wss"].map String.toList

/-- `_WHATWG_C0_CONTROL_OR_SPACE`. -/
def isStripped (c : Char) : Bool := c.toNat ≤ 0x20

/-- `_UNSAFE_URL_BYTES_TO_REMOVE`. -/
def isRemoved (c : Char) : Bool := c == '\t' || c == '\r' || c == '\n'

/-- What `urlsplit` leaves of a URL before it splits it. -/
def clean (url : List Char) : List Char := (url.dropWhile isStripped).filter fun c ↦ !isRemoved c

/-- `scheme_chars`. -/
def schemeChar (c : Char) : Bool := c.isAlphanum || c == '+' || c == '-' || c == '.'

/-- The text in front of the first `c` and the text behind it. -/
def cut (c : Char) (text : List Char) : List Char × List Char :=
  (text.takeWhile (· ≠ c), (text.dropWhile (· ≠ c)).tail)

/-- A URL begins with a scheme and a colon. -/
def hasScheme (url : List Char) : Bool :=
  url.contains ':' && url.head?.any Char.isAlpha && (url.takeWhile (· ≠ ':')).all schemeChar

/-- The scheme, in lower case, and the rest. -/
def splitScheme (url : List Char) : List Char × List Char :=
  if hasScheme url then ((cut ':' url).1.map Char.toLower, (cut ':' url).2) else ([], url)

/-- The end of a network location. -/
def isDelimiter (c : Char) : Bool := c == '/' || c == '?' || c == '#'

/-- `_splitnetloc`, where there is a network location. -/
def splitNetloc (url : List Char) : List Char × List Char :=
  if ['/', '/'] <+: url then
    ((url.drop 2).takeWhile fun c ↦ !isDelimiter c, (url.drop 2).dropWhile fun c ↦ !isDelimiter c)
  else ([], url)

/-- A match of `\Av[a-fA-F0-9]+\..+\Z` with what follows the `v`. -/
def isIPvFuture (rest : List Char) : Bool :=
  let isHex := fun c : Char ↦ c.isDigit || ('a' ≤ c && c ≤ 'f') || ('A' ≤ c && c ≤ 'F')
  (rest.head?.any isHex) && match rest.dropWhile isHex with
    | '.' :: _ :: _ => true
    | _ => false

/-- `_check_bracketed_host`. -/
def checkBracketedHost (platform : Platform) (hostname : List Char) : Except String Unit :=
  if hostname.head? = some 'v' then
    if isIPvFuture hostname.tail then .ok () else .error "IPvFuture address is invalid"
  else do
    if ← platform.ipAddress hostname then throw "An IPv4 address cannot be in brackets"

/-- The checks of `urlsplit` on brackets, then `_checknetloc`. -/
def checkNetloc (platform : Platform) (netloc : List Char) : Except String Unit := do
  if netloc.contains '[' ≠ netloc.contains ']' then throw "Invalid IPv6 URL"
  if netloc.contains '[' then checkBracketedHost platform (cut ']' (cut '[' netloc).2).1
  if netloc.all fun c ↦ c.toNat < 128 then return
  let n := netloc.filter fun c ↦ !(['@', ':', '#', '?'].contains c)
  if n = platform.normalize n then return
  if (platform.normalize n).any fun c ↦ ['/', '?', '#', '@', ':'].contains c then
    throw ("netloc '" ++ String.ofList netloc ++
      "' contains invalid characters under NFKC normalization")

/-- `urlsplit`, as a result without parameters. -/
def urlsplit (platform : Platform) (url : List Char) : Except String ParseResult := do
  let (scheme, rest) := splitScheme (clean url)
  let (netloc, rest) := splitNetloc rest
  checkNetloc platform netloc
  let (rest, fragment) := cut '#' rest
  let (path, query) := cut '?' rest
  return { scheme, netloc, path, params := [], query, fragment }

/-- The path and the parameters; `_splitparams` cuts the last segment. -/
def splitParams (scheme url : List Char) : List Char × List Char :=
  if usesParams.contains scheme ∧ ';' ∈ url then
    (url.rdropWhile (· ≠ '/') ++ (cut ';' (url.rtakeWhile (· ≠ '/'))).1,
      (cut ';' (url.rtakeWhile (· ≠ '/'))).2)
  else (url, [])

/-- `urlparse`. -/
def urlparse (platform : Platform) (url : List Char) : Except String ParseResult := do
  let split ← urlsplit platform url
  let (path, params) := splitParams split.scheme split.path
  return { split with path, params }

/-! ## Unparsing -/

/-- A part with the character in front of it, if there is one. -/
def mark (c : Char) (part : List Char) : List Char := if part = [] then [] else c :: part

/-- A path that is not empty, made absolute. -/
def slash (url : List Char) : List Char :=
  if url ≠ [] ∧ url.head? ≠ some '/' then '/' :: url else url

/-- `urlunsplit` writes a network location, be it an empty one. -/
def hasNetloc (rule : EmptyNetloc) (scheme netloc url : List Char) : Prop :=
  netloc ≠ [] ∨ ['/', '/'] <+: url ∨ scheme ≠ [] ∧ usesNetloc.contains scheme ∧
    (rule = .always ∨ url = [] ∨ url.head? = some '/')

instance (rule : EmptyNetloc) (scheme netloc url : List Char) :
    Decidable (hasNetloc rule scheme netloc url) := by
  unfold hasNetloc
  infer_instance

/-- The network location and the path in `urlunsplit`. -/
def unsplitNetloc (rule : EmptyNetloc) (scheme netloc url : List Char) : List Char :=
  if hasNetloc rule scheme netloc url then '/' :: '/' :: (netloc ++ slash url) else url

/-- `urlunsplit` in front of the query. -/
def unsplitFront (rule : EmptyNetloc) (scheme netloc url : List Char) : List Char :=
  if scheme = [] then unsplitNetloc rule scheme netloc url
  else scheme ++ ':' :: unsplitNetloc rule scheme netloc url

/-- `urlunparse`. -/
def urlunparse (rule : EmptyNetloc) (p : ParseResult) : List Char :=
  unsplitFront rule p.scheme p.netloc (p.path ++ mark ';' p.params) ++ mark '?' p.query ++
    mark '#' p.fragment

end ScrapyCffi.Base.Url
