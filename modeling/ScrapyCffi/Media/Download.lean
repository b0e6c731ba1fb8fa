import ScrapyCffi.Media.Request

/-!
# The ranged download loop

`SessionWrapper._media_part_request` and `SessionWrapper.media_req`,
`scrapy_cffi/core/sessions.py:447–556`. The transport is a function of the number of calls
already made and of the headers sent, so one transport is one sequence of answers, however
they were chosen. The two logs `parts` and `ranges` record what the loop accepted and
computed; no branch reads them.
-/

namespace ScrapyCffi.Media

open ScrapyCffi.Http

/-- The fields of an HTTP response that the download reads. -/
structure Response where
  statusCode : Nat
  headers : Headers
  content : List UInt8
  deriving DecidableEq, Repr

/-- How one awaited transport call ends; `retryable` are the exception types of
`sessions.py:402–405`. -/
inductive Attempt
  | response (response : Response)
  | retryable (error : String)
  | failure (error : String)
  deriving DecidableEq, Repr

/-- What a download raises. -/
inductive Raised
  | valueError (message : String)
  | runtimeError (message : String)
  | cancelled
  | transport (error : String)
  deriving DecidableEq, Repr

/-- The wrapper's surroundings: `stopEvent k` is whether a check before transport call `k`
sees the stop event set, `request k` answers that call, and `maxReqTimes` is
`settings.MAX_REQ_TIMES`. -/
structure SessionWrapper where
  stopEvent : Nat → Bool
  request : Nat → Headers → Attempt
  maxReqTimes : Nat

namespace SessionWrapper

/-- `request.max_retry_times or settings.MAX_REQ_TIMES`; `stop_after_attempt` always makes
a first attempt. `sessions.py:392,399`. -/
def retryTimes (w : SessionWrapper) (request : MediaRequest) : Nat :=
  max 1 (request.maxRetryTimes.getD w.maxReqTimes)

/-- At least one attempt is made. -/
theorem retryTimes_pos (w : SessionWrapper) (request : MediaRequest) :
    0 < w.retryTimes request := Nat.lt_of_lt_of_le Nat.zero_lt_one (Nat.le_max_left _ _)

/-- `_media_part_request` with `attempts` left and `calls` transport calls made;
`sessions.py:447–467`. -/
def mediaPartRequest (w : SessionWrapper) (headers : Headers) :
    (attempts calls : Nat) → Except Raised Response × Nat
  | 0, calls => (.error (.runtimeError "Media retry policy completed without a result"), calls)
  | attempts + 1, calls =>
    if w.stopEvent calls then (.error .cancelled, calls)
    else match w.request calls headers with
      | .response response => (.ok response, calls + 1)
      | .failure error => (.error (.transport error), calls + 1)
      | .retryable error =>
        if attempts = 0 then (.error (.transport error), calls + 1)
        else w.mediaPartRequest headers attempts (calls + 1)

/-- A response the transport really gave. -/
def Received (w : SessionWrapper) (response : Response) : Prop :=
  ∃ call headers, w.request call headers = .response response

/-- A part request returns only what the transport answered. -/
theorem received_of_mediaPartRequest (w : SessionWrapper) (headers : Headers)
    (attempts calls : Nat) {response : Response} {after : Nat}
    (h : w.mediaPartRequest headers attempts calls = (.ok response, after)) :
    w.Received response := by
  induction attempts generalizing calls with
  | zero => simp [mediaPartRequest] at h
  | succ attempts ih =>
    rw [mediaPartRequest] at h
    split at h
    · cases h
    · split at h
      · next r hr =>
        cases h
        exact ⟨calls, headers, hr⟩
      · cases h
      · split at h
        · cases h
        · exact ih _ h

/-- A transport that answers at once is asked once. -/
theorem mediaPartRequest_of_response (w : SessionWrapper) (headers : Headers)
    {attempts calls : Nat} (ha : 0 < attempts) (hs : w.stopEvent calls = false)
    {response : Response} (hr : w.request calls headers = .response response) :
    w.mediaPartRequest headers attempts calls = (.ok response, calls + 1) := by
  obtain ⟨n, rfl⟩ := Nat.exists_eq_add_one_of_ne_zero (Nat.ne_of_gt ha)
  simp [mediaPartRequest, hs, hr]

end SessionWrapper

/-- An accepted 206 response: its span, the total it declared, its body. -/
structure Part where
  start : Nat
  stop : Nat
  declared : Option Nat
  response : Response
  deriving DecidableEq, Repr

/-- The bytes of an accepted part. -/
def Part.body (part : Part) : List UInt8 := part.response.content

/-- A computed range with the total known when it was computed. -/
structure AskedRange where
  start : Nat
  stop : Nat
  total : Option Nat
  deriving DecidableEq, Repr

/-- The loop's variables, `request.media_size` and the logs. -/
structure Download where
  mediaData : List UInt8
  total : Option Nat
  singlePartResponse : Option Response
  mediaSize : Nat
  calls : Nat
  parts : List Part
  ranges : List AskedRange
  deriving DecidableEq, Repr

/-- How one pass through the loop body ends. -/
inductive Pass
  | next (d : Download)
  | leave (d : Download)
  | returned (response : Response) (d : Download)
  | raised (error : Raised) (d : Download)
  deriving DecidableEq, Repr

/-- How a download ends; `running` is a download that is still asking for ranges. -/
inductive Outcome
  | running (d : Download)
  | returned (response : Option Response) (d : Download)
  | raised (error : Raised) (d : Download)
  deriving DecidableEq, Repr

/-- The loop's state in any outcome. -/
def Outcome.download : Outcome → Download
  | .running d => d
  | .returned _ d => d
  | .raised _ d => d

/-- The bounds of the next part; `sessions.py:477–480`. -/
def partRange (request : MediaRequest) (total : Option Nat) (downloaded : Nat) : AskedRange :=
  let partByteEnd := downloaded + request.singlePartSize - 1
  match total with
  | none => ⟨downloaded, partByteEnd, none⟩
  | some size => ⟨downloaded, min partByteEnd (size - 1), some size⟩

/-- The request headers with this part's `Range`; `sessions.py:481–486`. -/
def rangeHeaders (request : MediaRequest) (start stop : Nat) : Headers :=
  let rangeKey := (findHeaderKey request.headers "Range").getD "Range"
  setItem rangeKey (rangeText start stop) (request.headers.getD [])

/-- `next(value for key, value in response.headers.items() ...)`; `sessions.py:490–493`. -/
def contentRange (response : Response) : Option String := field "content-range" response.headers

/-- The span a 206 response declares; `sessions.py:524–534`. -/
def span (range : Option String) (total : Option Nat) (start stop : Nat) :
    Option ContentRange :=
  match range, total with
  | none, some size => some ⟨start, stop, some size⟩
  | range, _ => matchContentRange (range.getD "")

/-- The total the server itself declared: none is read when `Content-Range` is omitted. -/
def declaredTotal (response : Response) (r : ContentRange) : Option Nat :=
  if (contentRange response).isSome then r.total else none

/-- The total after a part, or the failing check; `sessions.py:539–544`. -/
def updateTotal (d : Download) (r : ContentRange) : Except Raised (Option Nat) :=
  match r.total with
  | none => .ok d.total
  | some reported =>
    if reported ≤ r.stop then .error (.valueError "invalid media Content-Range total")
    else if d.mediaData ≠ [] ∧ d.total ≠ none ∧ d.total ≠ some reported then
      .error (.valueError "media total changed during download")
    else .ok (some reported)

/-- The 206 branch; `sessions.py:524–553`. -/
def acceptPart (request : MediaRequest) (d : Download) (start stop : Nat) (response : Response) :
    Except Raised Download :=
  match span (contentRange response) d.total start stop with
  | none => .error (.valueError "missing or invalid media Content-Range")
  | some r =>
    if r.start ≠ start ∨ r.stop < r.start ∨ stop < r.stop then
      .error (.valueError "media Content-Range does not match requested range")
    else if response.content.length ≠ r.stop - r.start + 1 then
      .error (.valueError "media body size does not match Content-Range")
    else match updateTotal d r with
      | .error error => .error error
      | .ok total =>
        if request.maxMediaSize.any (· < max (total.getD 0) (r.stop + 1)) then
          .error (.valueError "downloaded media exceeds max_media_size")
        else .ok { d with
          mediaData := d.mediaData ++ response.content
          total
          singlePartResponse := some response
          mediaSize := total.getD d.mediaSize
          parts := d.parts ++ [⟨r.start, r.stop, declaredTotal response r, response⟩] }

/-- The 200 branch; `sessions.py:513–520`. -/
def wholeBody (request : MediaRequest) (d : Download) (response : Response) : Pass :=
  if d.total ≠ none ∧ d.total ≠ some response.content.length then
    .raised (.valueError "downloaded media size does not match declared media_size") d
  else if request.maxMediaSize.any (· < response.content.length) then
    .raised (.valueError "downloaded media exceeds max_media_size") d
  else .returned response { d with mediaSize := response.content.length }

/-- The ordinary representation of an empty resource; `sessions.py:501–510`. -/
def emptyBody (w : SessionWrapper) (request : MediaRequest) (d : Download) (headers : Headers) :
    Pass :=
  match w.mediaPartRequest (without "range" headers) (w.retryTimes request) d.calls with
  | (.error error, calls) => .raised error { d with calls }
  | (.ok response, calls) =>
    if response.statusCode ≠ 200 ∨ response.content ≠ [] then
      .raised (.valueError "empty media response does not match declared size") { d with calls }
    else .returned response { d with calls }

/-- The 416 branch; `sessions.py:494–511`. -/
def unsatisfied (w : SessionWrapper) (request : MediaRequest) (d : Download) (headers : Headers)
    (response : Response) : Pass :=
  match matchUnsatisfied ((contentRange response).getD "") with
  | none => .raised (.valueError "unsatisfied media range does not match downloaded size") d
  | some size =>
    if size ≠ d.mediaData.length then
      .raised (.valueError "unsatisfied media range does not match downloaded size") d
    else if d.total ≠ none ∧ d.total ≠ some size then
      .raised (.valueError "media total changed during download") d
    else
      let d := { d with mediaSize := size }
      match d.singlePartResponse with
      | none => emptyBody w request d headers
      | some _ => .leave d

/-- The branches on the status of one range's response; `sessions.py:494–553`. -/
def handleResponse (w : SessionWrapper) (request : MediaRequest) (d : Download)
    (start stop : Nat) (headers : Headers) (response : Response) : Pass :=
  if response.statusCode = 416 then unsatisfied w request d headers response
  else if response.statusCode = 200 then wholeBody request d response
  else if response.statusCode ≠ 206 then
    .raised (.valueError ("unexpected media HTTP status: " ++ toString response.statusCode)) d
  else match acceptPart request d start stop response with
    | .error error => .raised error d
    | .ok d => .next d

/-- One pass through the loop body; `sessions.py:475–553`. -/
def pass (w : SessionWrapper) (request : MediaRequest) (d : Download) : Pass :=
  if w.stopEvent d.calls then .raised .cancelled d
  else
    let asked := partRange request d.total d.mediaData.length
    let d := { d with ranges := d.ranges ++ [asked] }
    let headers := rangeHeaders request asked.start asked.stop
    match w.mediaPartRequest headers (w.retryTimes request) d.calls with
    | (.error error, calls) => .raised error { d with calls }
    | (.ok response, calls) =>
      handleResponse w request { d with calls } asked.start asked.stop headers response

/-- `total is None or len(media_data) < total`; `sessions.py:474`. -/
def Download.unfinished (d : Download) : Bool :=
  match d.total with
  | none => true
  | some size => d.mediaData.length < size

/-- The last part's response with the assembled content; `sessions.py:554–556`. -/
def assembled (d : Download) : Outcome :=
  .returned (d.singlePartResponse.map fun response ↦ { response with content := d.mediaData }) d

/-- The loop, for at most `fuel` passes. -/
def mediaLoop (w : SessionWrapper) (request : MediaRequest) : Nat → Download → Outcome
  | 0, d => .running d
  | fuel + 1, d =>
    if d.unfinished then
      match pass w request d with
      | .next d => mediaLoop w request fuel d
      | .leave d => assembled d
      | .returned response d => .returned (some response) d
      | .raised error d => .raised error d
    else assembled d

/-- The loop's variables before the first range; `sessions.py:471–473`. -/
def Download.start (request : MediaRequest) : Download where
  mediaData := []
  total := if request.mediaSize = 0 then none else some request.mediaSize
  singlePartResponse := none
  mediaSize := request.mediaSize
  calls := 0
  parts := []
  ranges := []

/-- `SessionWrapper.media_req`, for at most `fuel` ranges; `sessions.py:469–556`. -/
def mediaReq (w : SessionWrapper) (request : MediaRequest) (fuel : Nat) : Outcome :=
  mediaLoop w request fuel (.start request)

end ScrapyCffi.Media
