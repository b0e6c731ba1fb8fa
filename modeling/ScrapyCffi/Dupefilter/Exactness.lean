import ScrapyCffi.Dupefilter.Headers
import ScrapyCffi.Requests.RoundTrip

/-!
# What fingerprint bytes tell

When two requests have the same fingerprint bytes exactly if they are the same request: the
bytes are a URL, a header text, a method and a body with too few separators between them, and
several bodies are written alike.
-/

namespace ScrapyCffi.Dupefilter

open ScrapyCffi.Base ScrapyCffi.Requests

variable {φ : Type} [PyFloat φ]

/-! ## Identity of requests -/

/-- The same value up to the order of dictionary keys. -/
def Same (v w : Value φ) : Prop :=
  v = w ∨ ∃ sorted, v.sortKeys = some sorted ∧ w.sortKeys = some sorted

variable (lib : Urllib φ) (rt : Runtime φ) (includeHeaders : List String)

/-- The same canonical URL and the same values of the selected headers. -/
structure SameTarget (r s : Requests.Request φ) : Prop where
  url : ∃ url, canonicalRequestUrl lib r.url = .ok url ∧ canonicalRequestUrl lib s.url = .ok url
  headers : HeadersRelated rt includeHeaders Same r.headers s.headers

/-- The same HTTP request: method, canonical URL, selected headers and body. -/
structure SameHttp (r s : HttpRequest φ) : Prop
    extends SameTarget lib rt includeHeaders r.toRequest s.toRequest where
  method : r.method = s.method
  data : Same r.data s.data

/-- The same WebSocket request: canonical URL, selected headers and message payloads. -/
structure SameWebSocket (r s : WebSocketRequest φ) : Prop
    extends SameTarget lib rt includeHeaders r.toRequest s.toRequest where
  payloads : r.sendMessage.map WebSocketMsg.data = s.sendMessage.map WebSocketMsg.data

/-- Both requests have bytes, and the same bytes exactly if they are the same request. -/
def HttpExact (r s : HttpRequest φ) : Prop :=
  ∃ b c, createBytesHttp lib rt includeHeaders r = .ok b ∧
    createBytesHttp lib rt includeHeaders s = .ok c ∧ (b = c ↔ SameHttp lib rt includeHeaders r s)

/-- Both requests have bytes, and the same bytes exactly if they are the same request. -/
def WebSocketExact (r s : WebSocketRequest φ) : Prop :=
  ∃ b c, createBytesWebSocket lib rt includeHeaders r = .ok b ∧
    createBytesWebSocket lib rt includeHeaders s = .ok c ∧
    (b = c ↔ SameWebSocket lib rt includeHeaders r s)

/-! ## Requests that are told apart -/

/-- No byte is written of this data. -/
def Unwritten : Value φ → Prop
  | .bytes data => data = []
  | .dict _ => False
  | _ => True

/-- The bytes that are written of data: bytes as they are, the JSON of a dictionary, and nothing
of anything else. -/
inductive DataWritten : Value φ → List UInt8 → Prop
  | nothing {data : Value φ} : Unwritten data → DataWritten data []
  | bytes (data : List UInt8) : DataWritten (.bytes data) data
  | json {entries : List (Value φ × Value φ)} {text : List Char} {data : List UInt8} :
    dumpsSorted (.dict entries) = .ok text → latin1 text = .ok data →
      DataWritten (.dict entries) data

/-- The bytes a request is written as, in parts. -/
@[ext]
structure Parts where
  url : List UInt8
  headers : List UInt8
  method : List UInt8
  body : List UInt8

/-- The text of the canonical URL and the JSON of the selected headers. -/
structure TargetWritten (r : Requests.Request φ) (url headers : List UInt8) : Prop where
  url : ∃ canonical, canonicalRequestUrl lib r.url = .ok canonical ∧
    latin1 (rt.text canonical).toList = .ok url
  headers : ∃ subset text, headerSubset rt r.headers includeHeaders [] = .ok subset ∧
    dumpsSorted (.dict subset) = .ok text ∧ latin1 text = .ok headers

/-- The parts of an HTTP request. -/
structure HttpWritten (r : HttpRequest φ) (p : Parts) : Prop
    extends TargetWritten lib rt includeHeaders r.toRequest p.url p.headers where
  method : latin1 (rt.text r.method).toList = .ok p.method
  body : DataWritten r.data p.body

/-- The parts of a WebSocket request, which has no method. -/
structure WebSocketWritten (r : WebSocketRequest φ) (p : Parts) : Prop
    extends TargetWritten lib rt includeHeaders r.toRequest p.url p.headers where
  method : p.method = []
  body : (r.sendMessage.map WebSocketMsg.data).flatten = p.body

/-- What follows the headers of an HTTP request. -/
def Parts.httpTail (p : Parts) : List UInt8 := p.method ++ 124 :: p.body

/-- One URL runs into what follows the other, `|` being 124. -/
def UrlRunsInto (tail : Parts → List UInt8) (p q : Parts) : Prop :=
  RunsInto 124 p.url (p.headers ++ tail p) q.url (q.headers ++ tail q)

/-- With the same URL and headers, one method runs into the body of the other. -/
def MethodRunsInto (p q : Parts) : Prop :=
  p.url = q.url ∧ p.headers = q.headers ∧ RunsInto 124 p.method p.body q.method q.body

/-- Where a separator stands can be read in two ways. -/
def HttpAmbiguous (p q : Parts) : Prop :=
  (UrlRunsInto Parts.httpTail p q ∨ UrlRunsInto Parts.httpTail q p) ∨
    MethodRunsInto p q ∨ MethodRunsInto q p

/-- Where a separator stands can be read in two ways. -/
def WebSocketAmbiguous (p q : Parts) : Prop :=
  UrlRunsInto Parts.body p q ∨ UrlRunsInto Parts.body q p

/-- The URLs have the same text and the selected headers the same JSON. -/
structure TargetAlike (r s : Requests.Request φ) : Prop where
  url : ∃ u v, canonicalRequestUrl lib r.url = .ok u ∧ canonicalRequestUrl lib s.url = .ok v ∧
    rt.text u = rt.text v
  headers : HeadersRelated rt includeHeaders JsonAlike r.headers s.headers

/-- Different HTTP requests that are written alike, each part like its counterpart. -/
structure HttpConfused (r s : HttpRequest φ) : Prop
    extends TargetAlike lib rt includeHeaders r.toRequest s.toRequest where
  method : rt.text r.method = rt.text s.method
  data : ∃ body, DataWritten r.data body ∧ DataWritten s.data body
  different : ¬ SameHttp lib rt includeHeaders r s

/-- Different WebSocket requests that are written alike: payloads with the same concatenation. -/
structure WebSocketConfused (r s : WebSocketRequest φ) : Prop
    extends TargetAlike lib rt includeHeaders r.toRequest s.toRequest where
  payloads : (r.sendMessage.map WebSocketMsg.data).flatten =
    (s.sendMessage.map WebSocketMsg.data).flatten
  different : ¬ SameWebSocket lib rt includeHeaders r s

/-- Both requests can be written, no URL or method runs into what follows the other, and the
requests are not different ones written alike. -/
def HttpSeparable (r s : HttpRequest φ) : Prop :=
  ∃ p q, HttpWritten lib rt includeHeaders r p ∧ HttpWritten lib rt includeHeaders s q ∧
    ¬ HttpAmbiguous p q ∧ ¬ HttpConfused lib rt includeHeaders r s

/-- Both requests can be written, no URL runs into what follows the other, and the requests are
not different ones written alike. -/
def WebSocketSeparable (r s : WebSocketRequest φ) : Prop :=
  ∃ p q, WebSocketWritten lib rt includeHeaders r p ∧
    WebSocketWritten lib rt includeHeaders s q ∧
    ¬ WebSocketAmbiguous p q ∧ ¬ WebSocketConfused lib rt includeHeaders r s

/-! ## Written targets -/

variable {lib rt includeHeaders}

variable {r s : Requests.Request φ} {url url' head head' : List UInt8}

/-- The header text is read back with whatever follows it. -/
theorem TargetWritten.append_inj {rest more : List UInt8}
    (hr : TargetWritten lib rt includeHeaders r url head)
    (hs : TargetWritten lib rt includeHeaders s url' head') (h : head ++ rest = head' ++ more) :
    head = head' ∧ rest = more := by
  obtain ⟨_, _, -, htext, hhead⟩ := hr.headers
  obtain ⟨_, _, -, htext', hhead'⟩ := hs.headers
  exact dumpsSorted_append_inj htext htext' hhead hhead' h

/-- Two targets are written as the same bytes when they are alike. -/
theorem TargetWritten.eq_iff (hr : TargetWritten lib rt includeHeaders r url head)
    (hs : TargetWritten lib rt includeHeaders s url' head') :
    url = url' ∧ head = head' ↔ TargetAlike lib rt includeHeaders r s := by
  obtain ⟨⟨u, hu, hurl⟩, ⟨subset, text, hsubset, htext, hhead⟩⟩ := hr
  obtain ⟨⟨v, hv, hurl'⟩, ⟨subset', text', hsubset', htext', hhead'⟩⟩ := hs
  rw [latin1_eq_iff hurl hurl', latin1_eq_iff hhead hhead',
    headersRelated_iff hsubset hsubset' htext htext', String.toList_inj]
  constructor
  · rintro ⟨htexts, hrelated⟩
    exact ⟨⟨u, v, hu, hv, htexts⟩, hrelated⟩
  · rintro ⟨⟨u', v', hu', hv', htexts⟩, hrelated⟩
    cases hu.symm.trans hu'
    cases hv.symm.trans hv'
    exact ⟨htexts, hrelated⟩

/-! ## The same request is written alike -/

/-- The same value has the same text. -/
theorem Same.dumpsSorted_eq {v w : Value φ} (h : Same v w) : dumpsSorted v = dumpsSorted w := by
  rcases h with rfl | ⟨sorted, hv, hw⟩
  · rfl
  · rw [dumpsSorted, dumpsSorted, hv, hw]

/-- The same target is written alike. -/
theorem TargetWritten.alike_of_same (hr : TargetWritten lib rt includeHeaders r url head)
    (h : SameTarget lib rt includeHeaders r s) : TargetAlike lib rt includeHeaders r s := by
  obtain ⟨canonical, hu, hv⟩ := h.url
  obtain ⟨subset, text, hsubset, htext, -⟩ := hr.headers
  refine ⟨⟨canonical, canonical, hu, hv, rfl⟩, ?_⟩
  intro key hkey
  obtain ⟨v, w, hvalue, hother, hsame⟩ := h.headers key hkey
  refine ⟨v, w, hvalue, hother, ?_⟩
  cases hsame with
  | none => exact .none
  | @some a b hab =>
    obtain ⟨value, hselected, hmem⟩ := mem_headerSubset hsubset hkey
    cases hvalue.symm.trans hselected
    obtain ⟨_, -, _, hjson, -⟩ := mem_of_dumpsSorted htext htext
      (stringKeys_headerSubset hsubset) ((hmem a).mp rfl)
    exact .some ⟨_, hjson, hab.dumpsSorted_eq ▸ hjson⟩

/-- Sorting keys makes bytes of nothing else. -/
theorem sortKeys_eq_bytes {v : Value φ} {data : List UInt8} :
    v.sortKeys = some (.bytes data) ↔ v = .bytes data := by
  cases v with
  | bytes b => simp [Value.sortKeys]
  | dict entries =>
    rw [Value.sortKeys]
    split <;> simp
  | _ => simp [Value.sortKeys]

/-- Sorting keys makes a dictionary of a dictionary only. -/
theorem exists_of_sortKeys_eq_dict {v : Value φ} {sorted : List (Value φ × Value φ)}
    (h : v.sortKeys = some (.dict sorted)) : ∃ entries, v = .dict entries := by
  cases v with
  | dict entries => exact ⟨entries, rfl⟩
  | _ => simp [Value.sortKeys] at h

/-- Nothing is written of data when nothing is of its sorted form. -/
theorem unwritten_sortKeys {v sorted : Value φ} (h : v.sortKeys = some sorted) :
    Unwritten v ↔ Unwritten sorted := by
  cases v with
  | list items =>
    obtain ⟨_, -, rfl⟩ := Option.map_eq_some_iff.mp h
    rfl
  | tuple items =>
    obtain ⟨_, -, rfl⟩ := Option.map_eq_some_iff.mp h
    rfl
  | dict entries =>
    rw [Value.sortKeys] at h
    split at h
    · obtain ⟨_, -, rfl⟩ := Option.map_eq_some_iff.mp h
      rfl
    · cases h
  | _ =>
    cases h
    rfl

/-- The same data is written as the same bytes. -/
theorem Same.dataWritten {v w : Value φ} {body : List UInt8} (h : Same v w)
    (hv : DataWritten v body) : DataWritten w body := by
  have htext := h.dumpsSorted_eq
  rcases h with rfl | ⟨sorted, hsorted, hsorted'⟩
  · exact hv
  · cases hv with
    | nothing hnothing =>
      exact .nothing ((unwritten_sortKeys hsorted').mpr ((unwritten_sortKeys hsorted).mp hnothing))
    | bytes data =>
      rw [← hsorted', sortKeys_eq_bytes.mpr rfl] at hsorted
      rw [sortKeys_eq_bytes.mp hsorted.symm]
      exact .bytes _
    | json hjson hbytes =>
      rw [Value.sortKeys] at hsorted
      split at hsorted
      · obtain ⟨_, -, rfl⟩ := Option.map_eq_some_iff.mp hsorted
        obtain ⟨others, rfl⟩ := exists_of_sortKeys_eq_dict hsorted'
        exact .json (htext ▸ hjson) hbytes
      · cases hsorted

/-! ## Bytes and parts -/

/-- The bytes of a body are those of its parts. -/
theorem dataWritten_iff {data : Value φ} {body : List UInt8} :
    DataWritten data body ↔ ∃ parts, bodyParts data = .ok parts ∧ parts.flatten = body := by
  constructor
  · intro h
    cases h with
    | nothing hnothing =>
      cases data with
      | bytes b => exact ⟨[b], rfl, by rw [show b = [] from hnothing]; rfl⟩
      | dict entries => exact hnothing.elim
      | _ => exact ⟨[], rfl, rfl⟩
    | bytes => exact ⟨[body], rfl, by simp⟩
    | json hjson hbytes =>
      exact ⟨[body], bind_eq_ok.mpr ⟨_, hjson, bind_eq_ok.mpr ⟨_, hbytes, rfl⟩⟩, by simp⟩
  · rintro ⟨parts, hparts, rfl⟩
    cases data with
    | bytes b =>
      cases hparts
      simpa using DataWritten.bytes b
    | dict entries =>
      obtain ⟨text, htext, hparts⟩ := bind_eq_ok.mp hparts
      obtain ⟨bytes, hbytes, hparts⟩ := bind_eq_ok.mp hparts
      cases hparts
      simpa using DataWritten.json htext hbytes
    | _ =>
      cases hparts
      exact .nothing trivial

/-- Data has one body. -/
theorem DataWritten.unique {data : Value φ} {x y : List UInt8} (hx : DataWritten data x)
    (hy : DataWritten data y) : x = y := by
  obtain ⟨parts, hparts, rfl⟩ := dataWritten_iff.mp hx
  obtain ⟨parts', hparts', rfl⟩ := dataWritten_iff.mp hy
  rw [Except.ok.inj (hparts.symm.trans hparts')]

/-- The fingerprint bytes of a target, a method and body parts. -/
theorem buildFingerprintBytes_eq_ok {method : Value φ} {parts : List (List UInt8)}
    {bytes : List UInt8} :
    buildFingerprintBytes lib rt r includeHeaders method parts = .ok bytes ↔
      ∃ url head methodPart, TargetWritten lib rt includeHeaders r url head ∧
        methodBytes rt method = .ok methodPart ∧
        bytes = url ++ 124 :: (head ++ (methodPart ++ parts.flatten)) := by
  unfold buildFingerprintBytes
  constructor
  · intro h
    obtain ⟨subset, hsubset, h⟩ := bind_eq_ok.mp h
    obtain ⟨canonical, hurl, h⟩ := bind_eq_ok.mp h
    obtain ⟨text, htext, h⟩ := bind_eq_ok.mp h
    obtain ⟨target, htarget, h⟩ := bind_eq_ok.mp h
    obtain ⟨methodPart, hmethod, h⟩ := bind_eq_ok.mp h
    cases h
    obtain ⟨url, rest, hurlBytes, hrest, rfl⟩ := latin1_append.mp htarget
    obtain ⟨head, hhead, rfl⟩ := latin1_separator.mp hrest
    exact ⟨url, head, methodPart,
      ⟨⟨canonical, hurl, hurlBytes⟩, ⟨subset, text, hsubset, htext, hhead⟩⟩, hmethod, by simp⟩
  · rintro ⟨url, head, methodPart, ⟨⟨canonical, hurl, hurlBytes⟩, ⟨subset, text, hsubset, htext,
      hhead⟩⟩, hmethod, rfl⟩
    have htarget := latin1_append.mpr
      ⟨url, _, hurlBytes, latin1_separator.mpr ⟨head, hhead, rfl⟩, rfl⟩
    refine bind_eq_ok.mpr ⟨subset, hsubset, bind_eq_ok.mpr ⟨canonical, hurl, ?_⟩⟩
    refine bind_eq_ok.mpr ⟨text, htext, bind_eq_ok.mpr ⟨_, htarget, ?_⟩⟩
    refine bind_eq_ok.mpr ⟨methodPart, hmethod, ?_⟩
    simp [pure, Except.pure]

omit [PyFloat φ] in
/-- A method that is not none is written with a separator behind it. -/
theorem methodBytes_eq_ok {method : Value φ} {bytes : List UInt8} (hmethod : method ≠ .none) :
    methodBytes rt method = .ok bytes ↔
      ∃ text, latin1 (rt.text method).toList = .ok text ∧ bytes = text ++ [124] := by
  have hsep : latin1 ['|'] = .ok [124] := by decide
  have heq : methodBytes rt method = latin1 ((rt.text method).toList ++ ['|']) := by
    cases method <;> first | rfl | exact absurd rfl hmethod
  rw [heq, latin1_append, hsep]
  simp

/-- The bytes of an HTTP request with a method. -/
theorem createBytesHttp_eq_ok {r : HttpRequest φ} {bytes : List UInt8} (hmethod : r.method ≠ .none) :
    createBytesHttp lib rt includeHeaders r = .ok bytes ↔
      ∃ p, HttpWritten lib rt includeHeaders r p ∧
        bytes = p.url ++ 124 :: (p.headers ++ p.httpTail) := by
  unfold createBytesHttp
  simp only [bind_eq_ok, buildFingerprintBytes_eq_ok, methodBytes_eq_ok hmethod]
  constructor
  · rintro ⟨parts, hparts, url, head, _, htarget, ⟨method, htext, rfl⟩, rfl⟩
    exact ⟨⟨url, head, method, parts.flatten⟩,
      ⟨htarget, htext, dataWritten_iff.mpr ⟨parts, hparts, rfl⟩⟩, by simp [Parts.httpTail]⟩
  · rintro ⟨p, hp, rfl⟩
    obtain ⟨parts, hparts, hbody⟩ := dataWritten_iff.mp hp.body
    exact ⟨parts, hparts, p.url, p.headers, _, hp.toTargetWritten, ⟨p.method, hp.method, rfl⟩,
      by simp [Parts.httpTail, hbody]⟩

/-- The bytes of a WebSocket request. -/
theorem createBytesWebSocket_eq_ok {r : WebSocketRequest φ} {bytes : List UInt8} :
    createBytesWebSocket lib rt includeHeaders r = .ok bytes ↔
      ∃ p, WebSocketWritten lib rt includeHeaders r p ∧
        bytes = p.url ++ 124 :: (p.headers ++ p.body) := by
  rw [createBytesWebSocket, buildFingerprintBytes_eq_ok]
  constructor
  · rintro ⟨url, head, _, htarget, ⟨⟩, rfl⟩
    exact ⟨⟨url, head, [], _⟩, ⟨htarget, rfl, rfl⟩, rfl⟩
  · rintro ⟨p, hp, rfl⟩
    exact ⟨p.url, p.headers, [], hp.toTargetWritten, rfl, by rw [hp.body]; rfl⟩

/-- Two requests have the same bytes when their parts agree, or when a URL runs into what follows
the other. -/
theorem bytes_eq_iff {r s : Requests.Request φ} {p q : Parts} (tail : Parts → List UInt8)
    (hr : TargetWritten lib rt includeHeaders r p.url p.headers)
    (hs : TargetWritten lib rt includeHeaders s q.url q.headers) :
    p.url ++ 124 :: (p.headers ++ tail p) = q.url ++ 124 :: (q.headers ++ tail q) ↔
      (p.url = q.url ∧ p.headers = q.headers ∧ tail p = tail q) ∨
        UrlRunsInto tail p q ∨ UrlRunsInto tail q p := by
  have htail : p.headers ++ tail p = q.headers ++ tail q ↔
      p.headers = q.headers ∧ tail p = tail q := by
    constructor
    · exact hr.append_inj hs
    · rintro ⟨hhead, htail⟩
      rw [hhead, htail]
  rw [separated_eq_iff, htail]
  rfl

/-- A constructor leaves a method. -/
theorem method_ne_none {keywords : Keywords φ} {r : HttpRequest φ}
    (h : HttpRequest.init rt keywords = .ok r) : r.method ≠ .none := by
  obtain ⟨method, hmethod, h⟩ := bind_eq_ok.mp h
  obtain ⟨_, -, h⟩ := bind_eq_ok.mp h
  obtain ⟨_, -, h⟩ := bind_eq_ok.mp h
  obtain ⟨_, -, h⟩ := bind_eq_ok.mp h
  cases h
  rintro rfl
  unfold upperMethod at hmethod
  split at hmethod <;> cases hmethod

section Http

variable {r s : HttpRequest φ} {p q : Parts}

/-- HTTP requests have the same parts when they are written alike. -/
theorem HttpWritten.eq_iff (hr : HttpWritten lib rt includeHeaders r p)
    (hs : HttpWritten lib rt includeHeaders s q) :
    p = q ↔ TargetAlike lib rt includeHeaders r.toRequest s.toRequest ∧
      rt.text r.method = rt.text s.method ∧
        ∃ body, DataWritten r.data body ∧ DataWritten s.data body := by
  have hmethod : p.method = q.method ↔ rt.text r.method = rt.text s.method := by
    rw [latin1_eq_iff hr.method hs.method, String.toList_inj]
  have hbody : p.body = q.body ↔ ∃ body, DataWritten r.data body ∧ DataWritten s.data body := by
    constructor
    · intro heq
      exact ⟨p.body, hr.body, heq ▸ hs.body⟩
    · rintro ⟨body, hbody, hbody'⟩
      rw [hr.body.unique hbody, hs.body.unique hbody']
  rw [Parts.ext_iff, ← and_assoc, hr.toTargetWritten.eq_iff hs.toTargetWritten, hmethod, hbody]

omit [PyFloat φ] in
/-- The parts of a request are read back from its bytes unless a separator is ambiguous. -/
theorem httpTail_eq_iff : p.url = q.url ∧ p.headers = q.headers ∧ p.httpTail = q.httpTail ↔
    p = q ∨ MethodRunsInto p q ∨ MethodRunsInto q p := by
  have htail : p.httpTail = q.httpTail ↔ p.method = q.method ∧ p.body = q.body ∨
      RunsInto 124 p.method p.body q.method q.body ∨
        RunsInto 124 q.method q.body p.method p.body := separated_eq_iff
  rw [htail, Parts.ext_iff, MethodRunsInto, MethodRunsInto, eq_comm (a := q.url),
    eq_comm (a := q.headers)]
  simp only [and_or_left]

/-- HTTP requests have the same bytes when they have the same parts or an ambiguous separator. -/
theorem HttpWritten.bytes_eq_iff (hr : HttpWritten lib rt includeHeaders r p)
    (hs : HttpWritten lib rt includeHeaders s q) :
    p.url ++ 124 :: (p.headers ++ p.httpTail) = q.url ++ 124 :: (q.headers ++ q.httpTail) ↔
      p = q ∨ HttpAmbiguous p q := by
  rw [Dupefilter.bytes_eq_iff Parts.httpTail hr.toTargetWritten hs.toTargetWritten,
    httpTail_eq_iff, HttpAmbiguous, or_assoc, or_comm (a := _ ∨ _) (b := MethodRunsInto p q ∨ _)]

omit [PyFloat φ] in
/-- The parts of one request have no ambiguous separator. -/
theorem HttpAmbiguous.ne (h : HttpAmbiguous p q) : p ≠ q := by
  rintro rfl
  rcases h with (h | h) | h | h
  · exact h.ne rfl
  · exact h.ne rfl
  · exact h.2.2.ne rfl
  · exact h.2.2.ne rfl

/-- The same HTTP request is written alike. -/
theorem HttpWritten.eq_of_same (hr : HttpWritten lib rt includeHeaders r p)
    (hs : HttpWritten lib rt includeHeaders s q) (h : SameHttp lib rt includeHeaders r s) :
    p = q :=
  (hr.eq_iff hs).mpr ⟨hr.toTargetWritten.alike_of_same h.toSameTarget, by rw [h.method], p.body,
    hr.body, h.data.dataWritten hr.body⟩

/-- The bytes of written HTTP requests are exact unless a separator is ambiguous or the requests
are different ones written alike. -/
theorem HttpWritten.exact_iff (hr : HttpWritten lib rt includeHeaders r p)
    (hs : HttpWritten lib rt includeHeaders s q) :
    (p.url ++ 124 :: (p.headers ++ p.httpTail) = q.url ++ 124 :: (q.headers ++ q.httpTail) ↔
        SameHttp lib rt includeHeaders r s) ↔
      ¬ HttpAmbiguous p q ∧ ¬ HttpConfused lib rt includeHeaders r s := by
  rw [hr.bytes_eq_iff hs]
  constructor
  · intro h
    constructor
    · intro hambiguous
      exact hambiguous.ne (hr.eq_of_same hs (h.mp (.inr hambiguous)))
    · intro hconfused
      have heq : p = q :=
        (hr.eq_iff hs).mpr ⟨hconfused.toTargetAlike, hconfused.method, hconfused.data⟩
      exact hconfused.different (h.mp (.inl heq))
  · rintro ⟨hambiguous, hconfused⟩
    constructor
    · rintro (heq | h)
      · by_contra hdifferent
        obtain ⟨halike, hmethod, hdata⟩ := (hr.eq_iff hs).mp heq
        exact hconfused ⟨halike, hmethod, hdata, hdifferent⟩
      · exact absurd h hambiguous
    · intro hsame
      exact .inl (hr.eq_of_same hs hsame)

end Http

section WebSocket

variable {r s : WebSocketRequest φ} {p q : Parts}

/-- WebSocket requests have the same parts when they are written alike. -/
theorem WebSocketWritten.eq_iff (hr : WebSocketWritten lib rt includeHeaders r p)
    (hs : WebSocketWritten lib rt includeHeaders s q) :
    p = q ↔ TargetAlike lib rt includeHeaders r.toRequest s.toRequest ∧
      (r.sendMessage.map WebSocketMsg.data).flatten =
        (s.sendMessage.map WebSocketMsg.data).flatten := by
  rw [Parts.ext_iff, ← and_assoc, hr.toTargetWritten.eq_iff hs.toTargetWritten, hr.body, hs.body,
    hr.method, hs.method, eq_self, true_and]

/-- The parts of one request have no ambiguous separator. -/
theorem WebSocketAmbiguous.ne (h : WebSocketAmbiguous p q) : p ≠ q := by
  rintro rfl
  rcases h with h | h
  · exact h.ne rfl
  · exact h.ne rfl

/-- The same WebSocket request is written alike. -/
theorem WebSocketWritten.eq_of_same (hr : WebSocketWritten lib rt includeHeaders r p)
    (hs : WebSocketWritten lib rt includeHeaders s q)
    (h : SameWebSocket lib rt includeHeaders r s) : p = q :=
  (hr.eq_iff hs).mpr ⟨hr.toTargetWritten.alike_of_same h.toSameTarget, by rw [h.payloads]⟩

/-- The bytes of written WebSocket requests are exact unless a separator is ambiguous or the
requests are different ones written alike. -/
theorem WebSocketWritten.exact_iff (hr : WebSocketWritten lib rt includeHeaders r p)
    (hs : WebSocketWritten lib rt includeHeaders s q) :
    (p.url ++ 124 :: (p.headers ++ p.body) = q.url ++ 124 :: (q.headers ++ q.body) ↔
        SameWebSocket lib rt includeHeaders r s) ↔
      ¬ WebSocketAmbiguous p q ∧ ¬ WebSocketConfused lib rt includeHeaders r s := by
  have hbytes : p.url ++ 124 :: (p.headers ++ p.body) = q.url ++ 124 :: (q.headers ++ q.body) ↔
      p = q ∨ WebSocketAmbiguous p q := by
    rw [bytes_eq_iff Parts.body hr.toTargetWritten hs.toTargetWritten, Parts.ext_iff, hr.method,
      hs.method, eq_self, true_and, WebSocketAmbiguous]
  rw [hbytes]
  constructor
  · intro h
    constructor
    · intro hambiguous
      exact hambiguous.ne (hr.eq_of_same hs (h.mp (.inr hambiguous)))
    · intro hconfused
      have heq : p = q := (hr.eq_iff hs).mpr ⟨hconfused.toTargetAlike, hconfused.payloads⟩
      exact hconfused.different (h.mp (.inl heq))
  · rintro ⟨hambiguous, hconfused⟩
    constructor
    · rintro (heq | h)
      · by_contra hdifferent
        obtain ⟨halike, hpayloads⟩ := (hr.eq_iff hs).mp heq
        exact hconfused ⟨halike, hpayloads, hdifferent⟩
      · exact absurd h hambiguous
    · intro hsame
      exact .inl (hr.eq_of_same hs hsame)

end WebSocket

/-! ## Exact identity -/

/-- `urllib.parse` on URLs without a query. -/
def plainUrllib : Urllib WholeFloat where
  Parsed := Value WholeFloat
  urlparse url := .ok url
  query _ := .str ""
  parseQsl _ := .ok []
  urlencode _ := ""
  replaceQuery parsed _ := parsed
  urlunparse _ := .ok ""

/-- A posted form. -/
def formRequest (data : Value WholeFloat) : HttpRequest WholeFloat :=
  { markExample with url := .str "http://a", method := .str "POST", data, metaDict := .dict [] }

/-- The arguments it is made of. -/
def formArguments (data : Value WholeFloat) : Keywords WholeFloat :=
  [("url", .str "http://a"), ("method", .str "POST"), ("data", data)]

/-- A WebSocket request with one message. -/
def chatRequest (data : List UInt8) : WebSocketRequest WholeFloat :=
  { markExample.toRequest with
    url := .str "ws://a"
    metaDict := .dict []
    websocketId := .str ""
    sendMessage := [{ data, flags := none }]
    pingData := .none
    pingInterval := .float ⟨15⟩ }

/-- The arguments it is made of. -/
def chatArguments (data : List UInt8) : Keywords WholeFloat :=
  [("url", .str "ws://a"), ("send_message", .msg { data, flags := none })]

/-- The parts of a posted form. -/
def formParts (body : List UInt8) : Parts where
  url := [104, 116, 116, 112, 58, 47, 47, 97]
  headers := [123, 125]
  method := [80, 79, 83, 84]
  body := body

/-- The parts of a chat. -/
def chatParts (body : List UInt8) : Parts where
  url := [119, 115, 58, 47, 47, 97]
  headers := [123, 125]
  method := []
  body := body

/-- A posted form is written. -/
theorem formParts_written (body : List UInt8) :
    HttpWritten plainUrllib getRuntime [] (formRequest (.bytes body)) (formParts body) where
  url := ⟨.str "http://a", rfl, show latin1 _ = .ok (formParts []).url by decide⟩
  headers := ⟨[], ['{', '}'], rfl, rfl, show latin1 _ = .ok (formParts []).headers by decide⟩
  method := show latin1 "POST".toList = .ok (formParts []).method by decide
  body := .bytes body

/-- A chat is written. -/
theorem chatParts_written (body : List UInt8) :
    WebSocketWritten plainUrllib getRuntime [] (chatRequest body) (chatParts body) where
  url := ⟨.str "ws://a", rfl, show latin1 _ = .ok (chatParts []).url by decide⟩
  headers := ⟨[], ['{', '}'], rfl, rfl, show latin1 _ = .ok (chatParts []).headers by decide⟩
  method := rfl
  body := List.append_nil body

end ScrapyCffi.Dupefilter
