import ScrapyCffi.Media.Soundness

/-!
# Ranged downloads are complete

An honest server answers every range of one resource with a correct 206, with the whole
resource or with 416 past its end, choosing freely at every call. A download from such a
server ends, because every accepted part is nonempty, and returns the resource: the
invariant `Tracks` says that the accepted parts are windows of the resource, so that the
gapless assembly of `Base.Tiling` is a prefix of it.
-/

namespace ScrapyCffi.Media

open ScrapyCffi.Base ScrapyCffi.Http

/-- The range a server reads from the headers it receives. -/
def requestedRange (headers : Headers) : Option (Nat × Nat) :=
  (field "range" headers).bind matchRange

/-- The loop's headers carry the range it computed, whatever the request's own headers. -/
theorem requestedRange_rangeHeaders (request : MediaRequest) (start stop : Nat) :
    requestedRange (rangeHeaders request start stop) = some (start, stop) := by
  have hfield : field "range" (rangeHeaders request start stop) =
      some (rangeText start stop) := by
    have hlower : lower "Range" = lower "range" := by decide
    unfold rangeHeaders
    cases hh : request.headers with
    | none => simpa [findHeaderKey, setItem, field] using hlower
    | some items =>
      cases hk : findHeaderKey (some items) "Range" with
      | some key => exact field_setItem_found key _ items "range" hk
      | none =>
        refine field_setItem_self "Range" _ items fun item hi hsame ↦ ?_
        have := List.find?_eq_none.mp hk item.1 (List.mem_map_of_mem hi)
        simp [hsame] at this
  simp [requestedRange, hfield, matchRange_text]

/-- A 206 with a nonempty prefix of the requested range `start-stop`, its correct
`Content-Range`, and the total or `*`. -/
def PartOf (resource : List UInt8) (start stop : Nat) (total : Option Nat)
    (response : Response) : Prop :=
  ∃ last, start ≤ last ∧ last ≤ stop ∧ last < resource.length ∧ response.statusCode = 206 ∧
    response.content = (resource.drop start).take (last - start + 1) ∧
    contentRange response = some (contentRangeText ⟨start, last, total⟩)

/-- A 200 with the whole resource. -/
def WholeOf (resource : List UInt8) (response : Response) : Prop :=
  response.statusCode = 200 ∧ response.content = resource

/-- An honest answer to the headers of one call. -/
structure HonestAnswer (resource : List UInt8) (headers : Headers) (response : Response) :
    Prop where
  whole : field "range" headers = none → WholeOf resource response
  inside : ∀ start stop, requestedRange headers = some (start, stop) → start ≤ stop →
    start < resource.length → PartOf resource start stop none response ∨
      PartOf resource start stop (some resource.length) response ∨ WholeOf resource response
  past : ∀ start stop, requestedRange headers = some (start, stop) → resource.length ≤ start →
    response.statusCode = 416 ∧ contentRange response = some (unsatisfiedText resource.length)

/-- The stop event stays clear and every call is answered honestly. -/
structure Honest (w : SessionWrapper) (resource : List UInt8) : Prop where
  running : ∀ call, w.stopEvent call = false
  answers : ∀ call headers, ∃ response, w.request call headers = .response response ∧
    HonestAnswer resource headers response

/-- Every range inside the resource is answered with 206 and the explicit total. -/
def Explicit (w : SessionWrapper) (resource : List UInt8) : Prop :=
  ∀ call headers response start stop, w.request call headers = .response response →
    requestedRange headers = some (start, stop) → start ≤ stop → start < resource.length →
      PartOf resource start stop (some resource.length) response

/-- What every pass against an honest server preserves. -/
structure Tracks (w : SessionWrapper) (request : MediaRequest) (resource : List UInt8)
    (d : Download) : Prop where
  sound : Sound w request d
  windows : ∀ part ∈ d.parts,
    part.body = (resource.drop part.start).take part.body.length
  total : d.total = none ∨ d.total = some resource.length ∨
    (d.parts = [] ∧ resource ≠ [] ∧ Explicit w resource)

variable {w : SessionWrapper} {request : MediaRequest} {resource : List UInt8} {d : Download}

/-- The assembled bytes are a prefix of the resource. -/
theorem Tracks.eq_take (h : Tracks w request resource d) :
    d.mediaData = resource.take d.mediaData.length := by
  rw [h.sound.data]
  exact h.sound.gapless.eq_take _ _ resource h.windows

/-- No more is assembled than there is. -/
theorem Tracks.length_le (h : Tracks w request resource d) :
    d.mediaData.length ≤ resource.length := by
  have := congrArg List.length h.eq_take
  rw [List.length_take] at this
  omega

/-- As many bytes as the resource has are the resource. -/
theorem Tracks.eq_resource (h : Tracks w request resource d)
    (hl : resource.length ≤ d.mediaData.length) : d.mediaData = resource := by
  rw [h.eq_take]
  exact List.take_of_length_le hl

/-- A declared size other than that of the resource is only believed before the first part,
and then the resource is not empty. -/
theorem Tracks.total_of_end (h : Tracks w request resource d)
    (hl : resource.length ≤ d.mediaData.length) :
    d.total = none ∨ d.total = some resource.length := by
  obtain hn | hs | ⟨hparts, hne, -⟩ := h.total
  · exact .inl hn
  · exact .inr hs
  · have hdata : d.mediaData = [] := by simp [h.sound.data, hparts]
    rw [hdata] at hl
    exact absurd (List.length_eq_zero_iff.mp (Nat.le_zero.mp hl)) hne

/-- A finished loop has assembled all there is. -/
theorem Tracks.length_of_finished (h : Tracks w request resource d)
    (hdone : d.unfinished = false) : resource.length ≤ d.mediaData.length := by
  unfold Download.unfinished at hdone
  split at hdone
  · cases hdone
  · next size hsize =>
    have hge : size ≤ d.mediaData.length := by simpa using hdone
    obtain hn | hs | ⟨hparts, -, -⟩ := h.total
    · rw [hsize] at hn
      cases hn
    · rw [hsize] at hs
      cases hs
      exact hge
    · have hpos := h.sound.positive size hsize
      have hdata : d.mediaData = [] := by simp [h.sound.data, hparts]
      rw [hdata] at hge
      simp at hge
      omega

/-- What a pass against an honest server achieves: more bytes, or the whole resource. -/
def PassComplete (w : SessionWrapper) (request : MediaRequest) (resource : List UInt8)
    (d : Download) : Pass → Prop
  | .next d' => Tracks w request resource d' ∧ d.mediaData.length < d'.mediaData.length
  | .leave d' => ∃ last, d'.singlePartResponse = some last ∧ d'.mediaData = resource ∧
      d'.mediaSize = resource.length
  | .returned response d' => response.content = resource ∧ d'.mediaSize = resource.length
  | .raised _ _ => False

/-- An honest answer inside the resource, sharpened by what a wrong declared size implies. -/
theorem Tracks.answer_inside (h : Tracks w request resource d) {call : Nat}
    {headers : Headers} {response : Response} (hr : w.request call headers = .response response)
    (ha : HonestAnswer resource headers response) {start stop : Nat}
    (hrange : requestedRange headers = some (start, stop)) (hle : start ≤ stop)
    (hin : start < resource.length) :
    PartOf resource start stop (some resource.length) response ∨
      (d.total = none ∨ d.total = some resource.length) ∧
        (PartOf resource start stop none response ∨ WholeOf resource response) := by
  have hinside := ha.inside start stop hrange hle hin
  obtain hn | hs | ⟨-, -, hexplicit⟩ := h.total
  · tauto
  · tauto
  · exact .inl (hexplicit call headers response start stop hr hrange hle hin)

/-- A correct part of the resource is accepted, and the rest of the loop tracks it. -/
theorem Tracks.acceptPart_ok (h : Tracks w request resource d)
    (hmax : ∀ bound, request.maxMediaSize = some bound → resource.length ≤ bound)
    {start stop : Nat} {total : Option Nat} {response : Response}
    (hpart : PartOf resource start stop total response)
    (htotal : total = some resource.length ∨
      total = none ∧ (d.total = none ∨ d.total = some resource.length)) :
    ∃ last, start ≤ last ∧ response.content.length = last - start + 1 ∧
      response.content = (resource.drop start).take (last - start + 1) ∧
      acceptPart request d start stop response = .ok { d with
        mediaData := d.mediaData ++ response.content
        total := total.or d.total
        singlePartResponse := some response
        mediaSize := (total.or d.total).getD d.mediaSize
        parts := d.parts ++ [⟨start, last, total, response⟩] } := by
  obtain ⟨last, hle, hstop, hin, -, hcontent, hrange⟩ := hpart
  have hlen : response.content.length = last - start + 1 := by
    rw [hcontent, List.length_take, List.length_drop]
    omega
  refine ⟨last, hle, hlen, hcontent, ?_⟩
  have hspan : span (contentRange response) d.total start stop = some ⟨start, last, total⟩ := by
    rw [hrange]
    cases d.total <;> simp [span, matchContentRange_text]
  have hupdate : updateTotal d ⟨start, last, total⟩ = .ok (total.or d.total) := by
    obtain rfl | ⟨rfl, -⟩ := htotal
    · have hknown : ¬(d.mediaData ≠ [] ∧ d.total ≠ none ∧ d.total ≠ some resource.length) := by
        rintro ⟨hne, hnn, hns⟩
        obtain hn | hs | ⟨hparts, -, -⟩ := h.total
        · exact hnn hn
        · exact hns hs
        · exact hne (by simp [h.sound.data, hparts])
      simp [updateTotal, hknown, Nat.not_le.mpr hin]
    · simp [updateTotal]
  have hfits : request.maxMediaSize.any
      (· < max ((total.or d.total).getD 0) (last + 1)) = false := by
    cases hb : request.maxMediaSize with
    | none => rfl
    | some bound =>
      have hbound := hmax bound hb
      have hknown : (total.or d.total).getD 0 ≤ resource.length := by
        obtain rfl | ⟨rfl, hn | hs⟩ := htotal
        · simp
        · simp [hn]
        · simp [hs]
      simp only [Option.any_some, decide_eq_false_iff_not]
      omega
  have hread : declaredTotal response ⟨start, last, total⟩ = total := by
    simp [declaredTotal, hrange]
  have hspans : ¬(last < start ∨ stop < last) := by omega
  simp only [acceptPart, hspan, hspans, hlen, hupdate, hfits, hread, ne_eq, not_true,
    false_or, ↓reduceIte, Bool.false_eq_true]

/-- After a correct part the loop goes on with more bytes of the resource. -/
theorem Tracks.handleResponse_part (h : Tracks w request resource d)
    (hmax : ∀ bound, request.maxMediaSize = some bound → resource.length ≤ bound)
    {start stop : Nat} {total : Option Nat} {headers : Headers} {response : Response}
    (hpart : PartOf resource start stop total response)
    (htotal : total = some resource.length ∨
      total = none ∧ (d.total = none ∨ d.total = some resource.length))
    (hsound : PassSound w request (handleResponse w request d start stop headers response)) :
    PassComplete w request resource d (handleResponse w request d start stop headers response) := by
  obtain ⟨last, hle, hlen, hcontent, hok⟩ := h.acceptPart_ok hmax hpart htotal
  obtain ⟨-, -, -, -, hstatus, -⟩ := hpart
  simp only [handleResponse, hstatus, hok, Nat.reduceEqDiff, ↓reduceIte, ne_eq,
    not_true] at hsound ⊢
  refine ⟨⟨hsound, ?_, ?_⟩, ?_⟩
  · intro part hp
    rcases List.mem_append.mp hp with hold | hnew
    · exact h.windows part hold
    · obtain rfl := List.mem_singleton.mp hnew
      simpa [Part.body, hlen] using hcontent
  · obtain rfl | ⟨rfl, hn | hs⟩ := htotal
    · simp
    · simp [hn]
    · simp [hs]
  · simp [hlen]

/-- The whole resource is returned wherever no wrong size was declared. -/
theorem wholeBody_complete
    (hmax : ∀ bound, request.maxMediaSize = some bound → resource.length ≤ bound)
    (htotal : d.total = none ∨ d.total = some resource.length) {response : Response}
    (hw : WholeOf resource response) :
    PassComplete w request resource d (wholeBody request d response) := by
  obtain ⟨-, hcontent⟩ := hw
  have hdeclared : ¬(d.total ≠ none ∧ d.total ≠ some response.content.length) := by
    rw [hcontent]
    tauto
  have hfits : request.maxMediaSize.any (· < response.content.length) = false := by
    cases hb : request.maxMediaSize with
    | none => rfl
    | some bound => simpa [hcontent] using hmax bound hb
  simp only [wholeBody, hdeclared, hfits, ↓reduceIte, Bool.false_eq_true]
  exact ⟨hcontent, congrArg List.length hcontent⟩

/-- A 416 at the end leaves the loop, or fetches the empty resource without a range. -/
theorem Tracks.unsatisfied_complete (hw : Honest w resource) (h : Tracks w request resource d)
    (hend : resource.length ≤ d.mediaData.length) (headers : Headers) {response : Response}
    (hr : contentRange response = some (unsatisfiedText resource.length)) :
    PassComplete w request resource d (unsatisfied w request d headers response) := by
  have hlen : resource.length = d.mediaData.length := Nat.le_antisymm hend h.length_le
  have htotal : ¬(d.total ≠ none ∧ d.total ≠ some resource.length) := by
    have := h.total_of_end hend
    tauto
  simp only [unsatisfied, hr, Option.getD_some, matchUnsatisfied_text]
  rw [if_neg (not_not.mpr hlen), if_neg htotal]
  cases hlast : d.singlePartResponse with
  | none =>
    have hparts := h.sound.response.mp hlast
    have hzero : resource.length = 0 := by simp [hlen, h.sound.data, hparts]
    have hnil := List.length_eq_zero_iff.mp hzero
    obtain ⟨full, hfull, hanswer⟩ := hw.answers d.calls (without "range" headers)
    obtain ⟨hstatus, hcontent⟩ := hanswer.whole (field_without _ _)
    have hpart := w.mediaPartRequest_of_response (without "range" headers)
      (w.retryTimes_pos request) (hw.running _) hfull
    simp [emptyBody, hpart, hstatus, hcontent, hnil, PassComplete]
  | some last => exact ⟨last, rfl, h.eq_resource hend, rfl⟩

/-- Every pass of an unfinished download gets more bytes or ends with the resource. -/
theorem Tracks.pass_complete (hw : Honest w resource) (h : Tracks w request resource d)
    (hmax : ∀ bound, request.maxMediaSize = some bound → resource.length ≤ bound)
    (hopen : ∀ size, d.total = some size → d.mediaData.length < size) :
    PassComplete w request resource d (pass w request d) := by
  have hsound := pass_sound h.sound hopen
  obtain ⟨hstart, htotal, hvalid⟩ := partRange_spec request d.total d.mediaData.length hopen
  unfold pass at hsound ⊢
  simp only [hw.running, Bool.false_eq_true, ↓reduceIte] at hsound ⊢
  generalize partRange request d.total d.mediaData.length = asked at *
  obtain ⟨response, hr, ha⟩ := hw.answers d.calls (rangeHeaders request asked.start asked.stop)
  have hrange := requestedRange_rangeHeaders request asked.start asked.stop
  rw [w.mediaPartRequest_of_response _ (w.retryTimes_pos request) (hw.running _) hr] at hsound ⊢
  dsimp only at hsound ⊢
  have hd : Tracks w request resource
      { d with calls := d.calls + 1, ranges := d.ranges ++ [asked] } :=
    ⟨h.sound.ask hvalid _, h.windows, h.total⟩
  by_cases hin : asked.start < resource.length
  · obtain hpart | ⟨hknown, hpart | hwhole⟩ := h.answer_inside hr ha hrange hvalid.1 hin
    · exact hd.handleResponse_part hmax hpart (.inl rfl) hsound
    · exact hd.handleResponse_part hmax hpart (.inr ⟨rfl, hknown⟩) hsound
    · simp only [handleResponse, hwhole.1, Nat.reduceEqDiff, ↓reduceIte]
      exact wholeBody_complete
        (d := { d with calls := d.calls + 1, ranges := d.ranges ++ [asked] }) hmax hknown hwhole
  · obtain ⟨hstatus, hcr⟩ := ha.past _ _ hrange (Nat.not_lt.mp hin)
    simp only [handleResponse, hstatus, ↓reduceIte]
    exact hd.unsatisfied_complete hw (by rw [← hstart]; omega) _ hcr

/-- An unfinished byte count bounds the passes that remain. -/
theorem mediaLoop_complete (hw : Honest w resource)
    (hmax : ∀ bound, request.maxMediaSize = some bound → resource.length ≤ bound) (fuel : Nat)
    {d : Download} (h : Tracks w request resource d)
    (hfuel : resource.length - d.mediaData.length < fuel) :
    ∃ response d', mediaLoop w request fuel d = .returned (some response) d' ∧
      response.content = resource ∧ d'.mediaSize = resource.length := by
  induction fuel generalizing d with
  | zero => omega
  | succ fuel ih =>
    rw [mediaLoop]
    split
    · next hunfinished =>
      have hopen : ∀ size, d.total = some size → d.mediaData.length < size := by
        intro size hs
        simpa [Download.unfinished, hs] using hunfinished
      have hpass := h.pass_complete hw hmax hopen
      split
      · next d' hp =>
        rw [hp] at hpass
        obtain ⟨htracks, hmore⟩ := hpass
        have := htracks.length_le
        exact ih htracks (by omega)
      · next d' hp =>
        rw [hp] at hpass
        obtain ⟨last, hlast, hdata, hsize⟩ := hpass
        exact ⟨{ last with content := d'.mediaData }, d', by simp [assembled, hlast], hdata, hsize⟩
      · next response d' hp =>
        rw [hp] at hpass
        exact ⟨response, d', rfl, hpass⟩
      · next error d' hp =>
        rw [hp] at hpass
        exact hpass.elim
    · next hfinished =>
      have hdone : d.unfinished = false := by simpa using hfinished
      obtain ⟨last, hlast, hdelivered⟩ := h.sound.complete hdone
      have hend : resource.length ≤ d.mediaData.length := h.length_of_finished hdone
      have hdata := h.eq_resource hend
      refine ⟨{ last with content := d.mediaData }, d, by simp [assembled, hlast], hdata, ?_⟩
      rw [hdelivered.mediaSize]
      exact congrArg List.length hdata

/-- A download from an honest server, whose declared size is zero, right, or corrected by the
explicit totals of a nonempty resource, ends and returns the resource with its size. -/
theorem mediaReq_complete (w : SessionWrapper) (request : MediaRequest) (resource : List UInt8)
    (hw : Honest w resource)
    (hmax : ∀ bound, request.maxMediaSize = some bound → resource.length ≤ bound)
    (hsize : request.mediaSize = 0 ∨ request.mediaSize = resource.length ∨
      (resource ≠ [] ∧ Explicit w resource)) :
    ∃ enough, ∀ fuel, enough ≤ fuel → ∃ response d,
      mediaReq w request fuel = .returned (some response) d ∧
        response.content = resource ∧ d.mediaSize = resource.length := by
  have hstart : Tracks w request resource (.start request) := by
    refine ⟨sound_start w request, by simp [Download.start], ?_⟩
    by_cases hzero : request.mediaSize = 0
    · simp [Download.start, hzero]
    · obtain h0 | heq | hexplicit := hsize
      · exact absurd h0 hzero
      · simp [Download.start, ← heq, hzero]
      · exact .inr (.inr ⟨rfl, hexplicit⟩)
  refine ⟨resource.length + 1, fun fuel hfuel ↦ ?_⟩
  exact mediaLoop_complete hw hmax fuel hstart (by simp [Download.start]; omega)

/-- A server that never tells the total: each range is answered as far as the resource goes. -/
def rangeServer (resource : List UInt8) : SessionWrapper where
  stopEvent _ := false
  maxReqTimes := 2
  request _ headers :=
    match requestedRange headers with
    | none => .response ⟨200, [], resource⟩
    | some (start, stop) =>
      if resource.length ≤ start then
        .response ⟨416, [("Content-Range", unsatisfiedText resource.length)], []⟩
      else
        let last := min stop (resource.length - 1)
        .response ⟨206, [("Content-Range", contentRangeText ⟨start, last, none⟩)],
          (resource.drop start).take (last - start + 1)⟩

/-- The concrete server is honest about every resource. -/
theorem honest_rangeServer (resource : List UInt8) : Honest (rangeServer resource) resource where
  running _ := rfl
  answers call headers := by
    have hlower : lower "Content-Range" = lower "content-range" := by decide
    simp only [rangeServer]
    cases hr : requestedRange headers with
    | none =>
      refine ⟨_, rfl, fun _ ↦ ⟨rfl, rfl⟩, ?_, ?_⟩ <;> simp [hr]
    | some range =>
      obtain ⟨start, stop⟩ := range
      have hfield : field "range" headers ≠ none := by
        intro hn
        simp [requestedRange, hn] at hr
      by_cases hpast : resource.length ≤ start
      · simp only [hpast, ↓reduceIte]
        refine ⟨_, rfl, fun hn ↦ absurd hn hfield, ?_, ?_⟩
        · intro start' stop' he _ hin
          cases hr.symm.trans he
          omega
        · intro start' stop' _ _
          exact ⟨rfl, by simp [contentRange, field, hlower]⟩
      · simp only [hpast, ↓reduceIte]
        refine ⟨_, rfl, fun hn ↦ absurd hn hfield, ?_, ?_⟩
        · intro start' stop' he hle hin
          cases hr.symm.trans he
          refine .inl ⟨min stop (resource.length - 1), by omega, by omega, by omega, rfl, rfl, ?_⟩
          simp [contentRange, field, hlower]
        · intro start' stop' he hout
          cases hr.symm.trans he
          exact absurd hout hpast

/-- Three bytes in parts of two from a server that hides the total. -/
theorem mediaReq_complete_three_bytes :
    let request : MediaRequest :=
      ⟨none, 2, 0, some 3, none, by decide, by simp, by simp, by simp⟩
    ∃ enough, ∀ fuel, enough ≤ fuel → ∃ response d,
      mediaReq (rangeServer [97, 98, 99]) request fuel = .returned (some response) d ∧
        response.content = [97, 98, 99] ∧ d.mediaSize = 3 :=
  mediaReq_complete _ _ [97, 98, 99] (honest_rangeServer _) (by simp) (.inl rfl)

end ScrapyCffi.Media
