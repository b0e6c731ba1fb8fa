import ScrapyCffi.Base.Tiling
import ScrapyCffi.Media.Download
import Mathlib

/-!
# Ranged downloads are sound

Whatever a transport answers, a download that returns has assembled exactly the accepted
parts, or returns one whole body. The invariant `Sound` is preserved by every pass through
the loop body of `sessions.py:475–553`; each branch of the body has one lemma saying all
that it can do.
-/

namespace ScrapyCffi.Media

open ScrapyCffi.Base ScrapyCffi.Http

/-- A part whose response is a received 206 and whose span is the one declared for it: that
of its `Content-Range`, or the requested span when the header is omitted for a known size.
The body is as long as the span. -/
structure Part.Accepted (w : SessionWrapper) (request : MediaRequest) (part : Part) : Prop where
  received : w.Received part.response
  status : part.response.statusCode = 206
  ordered : part.start ≤ part.stop
  length : part.body.length = part.stop - part.start + 1
  declares : (∃ text, contentRange part.response = some text ∧
      matchContentRange text = some ⟨part.start, part.stop, part.declared⟩) ∨
    (contentRange part.response = none ∧ part.declared = none ∧ ∃ size,
      partRange request (some size) part.start = ⟨part.start, part.stop, some size⟩)

/-- A computed range is ordered and ends before the total once that is known. -/
def AskedRange.Valid (asked : AskedRange) : Prop :=
  asked.start ≤ asked.stop ∧ ∀ size, asked.total = some size → asked.stop < size

/-- What every pass preserves. -/
structure Sound (w : SessionWrapper) (request : MediaRequest) (d : Download) : Prop where
  data : d.mediaData = d.parts.flatMap Part.body
  gapless : Gapless Part.start Part.body d.parts
  accepted : ∀ part ∈ d.parts, part.Accepted w request
  declared : ∀ part ∈ d.parts, ∀ size, part.declared = some size → d.total = some size
  positive : ∀ size, d.total = some size → 0 < size
  within : ∀ size, d.total = some size → d.mediaData.length ≤ size
  size : ∀ size, d.total = some size → d.mediaSize = size
  bounded : ∀ bound, request.maxMediaSize = some bound → d.mediaData.length ≤ bound
  response : d.singlePartResponse = none ↔ d.parts = []
  ranges : ∀ asked ∈ d.ranges, asked.Valid

/-- The computed range starts at the bytes assembled so far and is valid. -/
theorem partRange_spec (request : MediaRequest) (total : Option Nat) (downloaded : Nat)
    (h : ∀ size, total = some size → downloaded < size) :
    (partRange request total downloaded).start = downloaded ∧
      (partRange request total downloaded).total = total ∧
      (partRange request total downloaded).Valid := by
  have hpos := request.singlePartSize_pos
  cases total with
  | none => simp [partRange, AskedRange.Valid]; omega
  | some size =>
    have hlt := h size rfl
    simp only [partRange, AskedRange.Valid, Option.some.injEq, forall_eq', true_and]
    omega

/-- The declared span of a 206 response, with where it was read. -/
theorem span_spec {response : Response} {total : Option Nat} {start stop : Nat}
    {r : ContentRange} (h : span (contentRange response) total start stop = some r) :
    (∃ text, contentRange response = some text ∧ matchContentRange text = some r ∧
      declaredTotal response r = r.total) ∨
    (contentRange response = none ∧ declaredTotal response r = none ∧
      ∃ size, total = some size ∧ r = ⟨start, stop, some size⟩) := by
  cases hc : contentRange response with
  | some text =>
    left
    refine ⟨text, rfl, ?_, by simp [declaredTotal, hc]⟩
    cases total <;> simpa [span, hc] using h
  | none =>
    right
    cases total with
    | none =>
      rw [hc] at h
      revert h
      simp only [span, Option.getD_none]
      intro h
      cases h
    | some size =>
      rw [hc] at h
      simp only [span, Option.some.injEq] at h
      exact ⟨rfl, by simp [declaredTotal, hc], size, rfl, h.symm⟩

/-- An accepted total lies past the part and agrees with every total known before it. -/
theorem updateTotal_spec {d : Download} {r : ContentRange} {total : Option Nat}
    (h : updateTotal d r = .ok total) :
    (r.total = none ∧ total = d.total) ∨
      (∃ size, r.total = some size ∧ total = some size ∧ r.stop < size ∧
        (d.mediaData ≠ [] → ∀ known, d.total = some known → known = size)) := by
  unfold updateTotal at h
  split at h
  · next hr =>
    cases h
    exact .inl ⟨hr, rfl⟩
  · next size hr =>
    split at h
    · cases h
    · next hlt =>
      split at h
      · cases h
      · next hsame =>
        cases h
        refine .inr ⟨size, hr, rfl, by omega, ?_⟩
        intro hne known hk
        by_contra hdiff
        apply hsame
        simp [hne, hk, hdiff]

/-- Everything an accepted 206 response has passed, and what it changes. -/
theorem acceptPart_spec {request : MediaRequest} {d d' : Download} {start stop : Nat}
    {response : Response} (h : acceptPart request d start stop response = .ok d') :
    ∃ r total, span (contentRange response) d.total start stop = some r ∧
      r.start = start ∧ r.start ≤ r.stop ∧ r.stop ≤ stop ∧
      response.content.length = r.stop - r.start + 1 ∧
      updateTotal d r = .ok total ∧
      (∀ bound, request.maxMediaSize = some bound → r.stop + 1 ≤ bound) ∧
      d' = { d with
        mediaData := d.mediaData ++ response.content
        total
        singlePartResponse := some response
        mediaSize := total.getD d.mediaSize
        parts := d.parts ++ [⟨r.start, r.stop, declaredTotal response r, response⟩] } := by
  unfold acceptPart at h
  split at h
  · cases h
  · next r hspan =>
    split at h
    · cases h
    · next hr =>
      split at h
      · cases h
      · next hlen =>
        split at h
        · cases h
        · next total htotal =>
          split at h
          · cases h
          · next hmax =>
            refine ⟨r, total, hspan, by omega, by omega, by omega, by omega, htotal, ?_, ?_⟩
            · intro bound hb
              simp only [hb, Option.any_some, decide_eq_true_eq] at hmax
              omega
            · exact (Except.ok.inj h).symm

/-- Bytes are assembled exactly when a part was accepted. -/
theorem Sound.mediaData_ne_nil {w : SessionWrapper} {request : MediaRequest} {d : Download}
    (h : Sound w request d) (hne : d.parts ≠ []) : d.mediaData ≠ [] := by
  obtain ⟨part, rest, hp⟩ := List.exists_cons_of_ne_nil hne
  have hl := (h.accepted part (by simp [hp])).length
  rw [h.data, hp]
  intro hnil
  simp only [List.flatMap_cons, List.append_eq_nil_iff] at hnil
  rw [hnil.1] at hl
  simp at hl

/-- Accepting a part keeps the download sound. -/
theorem Sound.acceptPart {w : SessionWrapper} {request : MediaRequest} {d d' : Download}
    (h : Sound w request d) {start stop : Nat} {response : Response}
    (hrange : partRange request d.total d.mediaData.length = ⟨start, stop, d.total⟩)
    (hvalid : ∀ size, d.total = some size → stop < size)
    (hreceived : w.Received response) (hstatus : response.statusCode = 206)
    (ha : Media.acceptPart request d start stop response = .ok d') : Sound w request d' := by
  obtain ⟨r, total, hspan, hstart, hle, hstop, hlen, htotal, hbound, rfl⟩ := acceptPart_spec ha
  have hat : start = d.mediaData.length := by
    have hs := congrArg AskedRange.start hrange
    cases ht : d.total <;> simpa [partRange, ht] using hs.symm
  have hend : (d.mediaData ++ response.content).length = r.stop + 1 := by
    rw [List.length_append]
    omega
  have hpast : ∀ size, total = some size → r.stop < size := by
    intro size hs
    obtain ⟨-, rfl⟩ | ⟨known, -, hk, hlt, -⟩ := updateTotal_spec htotal
    · exact Nat.lt_of_le_of_lt hstop (hvalid size hs)
    · cases hs.symm.trans hk
      exact hlt
  constructor
  case data => simp [h.data, Part.body]
  case gapless =>
    refine (gapless_concat _ _).mpr ⟨h.gapless, ?_⟩
    rw [← h.data]
    exact hstart.trans hat
  case accepted =>
    intro part hp
    rcases List.mem_append.mp hp with hold | hnew
    · exact h.accepted part hold
    · obtain rfl := List.mem_singleton.mp hnew
      refine ⟨hreceived, hstatus, hle, hlen, ?_⟩
      obtain ⟨text, hc, hm, hd⟩ | ⟨hc, hd, size, hsize, rfl⟩ := span_spec hspan
      · exact .inl ⟨text, hc, by rw [hm, hd]⟩
      · refine .inr ⟨hc, hd, size, ?_⟩
        rw [← hsize, hat]
        exact hrange.trans (by rw [hat])
  case declared =>
    intro part hp size hs
    rcases List.mem_append.mp hp with hold | hnew
    · have hknown := h.declared part hold size hs
      obtain ⟨-, rfl⟩ | ⟨reported, -, rfl, -, hsame⟩ := updateTotal_spec htotal
      · exact hknown
      · have hne := h.mediaData_ne_nil (List.ne_nil_of_mem hold)
        exact congrArg some (hsame hne size hknown).symm
    · obtain rfl := List.mem_singleton.mp hnew
      obtain ⟨-, -, -, hd⟩ | ⟨-, hd, -⟩ := span_spec hspan
      · rw [hd] at hs
        obtain ⟨hnone, -⟩ | ⟨reported, hr, rfl, -, -⟩ := updateTotal_spec htotal
        · rw [hnone] at hs
          cases hs
        · exact hr.symm.trans hs
      · rw [hd] at hs
        cases hs
  case positive => exact fun size hs ↦ Nat.zero_lt_of_lt (hpast size hs)
  case within =>
    intro size hs
    have := hpast size hs
    rw [hend]
    omega
  case size =>
    intro size hs
    change total = some size at hs
    simp [hs]
  case bounded =>
    intro bound hb
    rw [hend]
    exact hbound bound hb
  case response => simp
  case ranges => exact h.ranges

/-- The logs and the loop's variables before the first range are sound. -/
theorem sound_start (w : SessionWrapper) (request : MediaRequest) :
    Sound w request (.start request) := by
  constructor <;> simp [Download.start, gapless_nil, Nat.pos_iff_ne_zero]

/-- Neither a transport call nor `request.media_size` of an open total is an invariant's
business; the computed range is. -/
theorem Sound.ask {w : SessionWrapper} {request : MediaRequest} {d : Download}
    (h : Sound w request d) {asked : AskedRange} (ha : asked.Valid) (calls : Nat) :
    Sound w request { d with calls, ranges := d.ranges ++ [asked] } := by
  refine { h with ranges := ?_ }
  intro other ho
  rcases List.mem_append.mp ho with hold | hnew
  · exact h.ranges other hold
  · obtain rfl := List.mem_singleton.mp hnew
    exact ha

/-- What a returned response is, with its state: one whole body, or the assembled parts. -/
structure Delivered (w : SessionWrapper) (request : MediaRequest) (response : Response)
    (d : Download) : Prop where
  content : (∃ full, w.Received full ∧ full.statusCode = 200 ∧ response.content = full.content) ∨
    response.content = d.parts.flatMap Part.body
  gapless : Gapless Part.start Part.body d.parts
  accepted : ∀ part ∈ d.parts, part.Accepted w request
  mediaSize : d.mediaSize = response.content.length
  totals : ∀ part ∈ d.parts, ∀ size, part.declared = some size → size = response.content.length
  bounded : ∀ bound, request.maxMediaSize = some bound → response.content.length ≤ bound

/-- What one pass guarantees: the next state is sound, and a returned response is delivered. -/
def PassSound (w : SessionWrapper) (request : MediaRequest) : Pass → Prop
  | .next d => Sound w request d
  | .leave d => (∀ asked ∈ d.ranges, asked.Valid) ∧ ∃ last, d.singlePartResponse = some last ∧
      Delivered w request { last with content := d.mediaData } d
  | .returned response d =>
    (∀ asked ∈ d.ranges, asked.Valid) ∧ Delivered w request response d
  | .raised _ d => ∀ asked ∈ d.ranges, asked.Valid

/-- The 200 branch returns the whole body it checked. -/
theorem wholeBody_sound {w : SessionWrapper} {request : MediaRequest} {d : Download}
    (h : Sound w request d) {response : Response} (hreceived : w.Received response)
    (hstatus : response.statusCode = 200) : PassSound w request (wholeBody request d response) := by
  unfold wholeBody
  split
  · exact h.ranges
  · next htotal =>
    split
    · exact h.ranges
    · next hmax =>
      refine ⟨h.ranges, .inl ⟨response, hreceived, hstatus, rfl⟩, h.gapless, h.accepted, rfl,
        ?_, ?_⟩
      · intro part hp size hs
        have hknown := h.declared part hp size hs
        by_contra hne
        apply htotal
        simp [hknown, hne]
      · intro bound hb
        simp only [hb, Option.any_some, decide_eq_true_eq] at hmax
        omega

/-- The 416 branch ends a download whose size is the assembled length, or fetches the
ordinary representation of an empty resource. -/
theorem unsatisfied_sound {w : SessionWrapper} {request : MediaRequest} {d : Download}
    (h : Sound w request d) (hopen : ∀ size, d.total = some size → d.mediaData.length < size)
    (headers : Headers) (response : Response) :
    PassSound w request (unsatisfied w request d headers response) := by
  unfold unsatisfied
  split
  · exact h.ranges
  · next size hmatch =>
    split
    · exact h.ranges
    · next hsize =>
      have hlen : size = d.mediaData.length := by simpa using hsize
      split
      · exact h.ranges
      · next htotal =>
        have hnone : d.total = none := by
          by_contra hne
          obtain ⟨known, hk⟩ := Option.ne_none_iff_exists'.mp hne
          have := hopen known hk
          apply htotal
          simp only [hk, ne_eq, reduceCtorEq, not_false_eq_true, Option.some.injEq, true_and]
          omega
        have hundeclared : ∀ part ∈ d.parts, ∀ total, part.declared = some total → False := by
          intro part hp total ht
          have hk := h.declared part hp total ht
          rw [hnone] at hk
          cases hk
        dsimp only
        split
        · next hlast =>
          have hparts := h.response.mp hlast
          have hzero : size = 0 := by simp [hlen, h.data, hparts]
          unfold emptyBody
          split
          · exact h.ranges
          · next full calls hfull =>
            split
            · exact h.ranges
            · next hempty =>
              simp only [ne_eq, not_or, not_not] at hempty
              refine ⟨h.ranges, .inl ⟨full, w.received_of_mediaPartRequest _ _ _ hfull,
                hempty.1, rfl⟩, h.gapless, h.accepted, ?_, ?_, ?_⟩
              · simp [hzero, hempty.2]
              · intro part hp
                simp [hparts] at hp
              · simp [hempty.2]
        · next last hlast =>
          refine ⟨h.ranges, last, hlast, .inr h.data, h.gapless, h.accepted, hlen, ?_,
            h.bounded⟩
          intro part hp total ht
          exact (hundeclared part hp total ht).elim

/-- One pass keeps a sound, unfinished download sound. -/
theorem pass_sound {w : SessionWrapper} {request : MediaRequest} {d : Download}
    (h : Sound w request d) (hopen : ∀ size, d.total = some size → d.mediaData.length < size) :
    PassSound w request (pass w request d) := by
  unfold pass
  split
  · exact h.ranges
  · obtain ⟨hstart, htotal, hvalid⟩ := partRange_spec request d.total d.mediaData.length hopen
    dsimp only
    generalize hasked : partRange request d.total d.mediaData.length = asked at *
    split
    · exact (h.ask hvalid 0).ranges
    · next response calls hresponse =>
      have hreceived := w.received_of_mediaPartRequest _ _ _ hresponse
      have hsound := h.ask hvalid calls
      unfold handleResponse
      split
      · exact unsatisfied_sound hsound hopen _ _
      · split
        · next hstatus => exact wholeBody_sound hsound hreceived hstatus
        · split
          · exact hsound.ranges
          · next hstatus =>
            split
            · exact hsound.ranges
            · next d' ha =>
              have hrange : partRange request d.total d.mediaData.length =
                  ⟨asked.start, asked.stop, d.total⟩ := by
                rw [hasked, ← htotal]
              exact hsound.acceptPart hrange (fun size hs ↦ hvalid.2 size (htotal.trans hs))
                hreceived (by simpa using hstatus) ha

/-- A sound download whose loop condition is false has an accepted part to return. -/
theorem Sound.complete {w : SessionWrapper} {request : MediaRequest} {d : Download}
    (h : Sound w request d) (hdone : d.unfinished = false) :
    ∃ last, d.singlePartResponse = some last ∧
      Delivered w request { last with content := d.mediaData } d := by
  unfold Download.unfinished at hdone
  split at hdone
  · cases hdone
  · next size hsize =>
    have hge : size ≤ d.mediaData.length := by simpa using hdone
    have hpos := h.positive size hsize
    have hparts : d.parts ≠ [] := by
      intro hnil
      rw [h.data, hnil] at hge
      simp at hge
      omega
    have hlast : d.singlePartResponse ≠ none := fun hn ↦ hparts (h.response.mp hn)
    obtain ⟨last, hlast⟩ := Option.ne_none_iff_exists'.mp hlast
    have hlen : size = d.mediaData.length := Nat.le_antisymm hge (h.within size hsize)
    refine ⟨last, hlast, .inr h.data, h.gapless, h.accepted, ?_, ?_, h.bounded⟩
    · exact (h.size size hsize).trans hlen
    · intro part hp total ht
      have hk := h.declared part hp total ht
      rw [hsize] at hk
      exact (Option.some.inj hk).symm.trans hlen

/-- A sound download is sound however its loop ends. -/
theorem mediaLoop_sound {w : SessionWrapper} {request : MediaRequest} (fuel : Nat)
    {d : Download} (h : Sound w request d) :
    (∀ asked ∈ (mediaLoop w request fuel d).download.ranges, asked.Valid) ∧
      ∀ response d', mediaLoop w request fuel d = .returned response d' →
        ∃ delivered, response = some delivered ∧ Delivered w request delivered d' := by
  induction fuel generalizing d with
  | zero => exact ⟨h.ranges, by simp [mediaLoop]⟩
  | succ fuel ih =>
    rw [mediaLoop]
    split
    · next hunfinished =>
      have hopen : ∀ size, d.total = some size → d.mediaData.length < size := by
        intro size hs
        simpa [Download.unfinished, hs] using hunfinished
      have hpass := pass_sound h hopen
      split
      · next d' hp =>
        rw [hp] at hpass
        exact ih hpass
      · next d' hp =>
        rw [hp] at hpass
        obtain ⟨hranges, last, hlast, hdelivered⟩ := hpass
        refine ⟨hranges, ?_⟩
        intro response d'' hr
        simp only [assembled, hlast, Option.map_some, Outcome.returned.injEq] at hr
        obtain ⟨rfl, rfl⟩ := hr
        exact ⟨_, rfl, hdelivered⟩
      · next response d' hp =>
        rw [hp] at hpass
        refine ⟨hpass.1, ?_⟩
        intro response' d'' hr
        cases hr
        exact ⟨response, rfl, hpass.2⟩
      · next error d' hp =>
        rw [hp] at hpass
        exact ⟨hpass, by simp⟩
    · next hfinished =>
      obtain ⟨last, hlast, hdelivered⟩ := h.complete (by simpa using hfinished)
      refine ⟨h.ranges, ?_⟩
      intro response d' hr
      simp only [assembled, hlast, Option.map_some, Outcome.returned.injEq] at hr
      obtain ⟨rfl, rfl⟩ := hr
      exact ⟨_, rfl, hdelivered⟩

end ScrapyCffi.Media
