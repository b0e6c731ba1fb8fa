import ScrapyCffi.Http.ContentRange

/-!
# Media requests

The bounds a `MediaRequest` is built with: `core/downloader/internet/request.py:281–291`
and the retry check of `Request.__init__`, `request.py:49–50`. A value of this structure is
a constructed request, so its fields carry what the constructor checked. Fields that the
ranged download does not read are omitted.
-/

namespace ScrapyCffi.Media

open ScrapyCffi.Http

/-- A constructed media request with the checks its constructor made. -/
structure MediaRequest where
  headers : Option Headers
  singlePartSize : Nat
  mediaSize : Nat
  maxMediaSize : Option Nat
  maxRetryTimes : Option Nat
  singlePartSize_pos : 0 < singlePartSize
  maxMediaSize_pos : ∀ bound, maxMediaSize = some bound → 0 < bound
  mediaSize_le : ∀ bound, maxMediaSize = some bound → mediaSize ≤ bound
  maxRetryTimes_pos : ∀ times, maxRetryTimes = some times → 0 < times

namespace MediaRequest

/-- The first failing check in source order, or `none`; `request.py:49,281–291`. -/
def rejection (singlePartSize mediaSize : Int) (maxMediaSize maxRetryTimes : Option Int) :
    Option String :=
  if singlePartSize ≤ 0 then some "single_part_size must be positive"
  else if mediaSize < 0 then some "media_size must be non-negative"
  else if maxMediaSize.any (· ≤ 0) then some "max_media_size must be positive or None"
  else if maxMediaSize.any (mediaSize > ·) then some "media_size exceeds max_media_size"
  else if maxRetryTimes.any (· < 1) then some "max_retry_times must be at least 1"
  else none

/-- The checks pass exactly on the admitted bounds. -/
theorem rejection_eq_none_iff (singlePartSize mediaSize : Int)
    (maxMediaSize maxRetryTimes : Option Int) :
    rejection singlePartSize mediaSize maxMediaSize maxRetryTimes = none ↔
      0 < singlePartSize ∧ 0 ≤ mediaSize ∧ (∀ bound, maxMediaSize = some bound → 0 < bound) ∧
        (∀ bound, maxMediaSize = some bound → mediaSize ≤ bound) ∧
        ∀ times, maxRetryTimes = some times → 0 < times := by
  cases maxMediaSize <;> cases maxRetryTimes <;> grind [rejection]

/-- `MediaRequest.__init__`: the rejected arguments raise `ValueError`. -/
def construct (headers : Option Headers) (singlePartSize mediaSize : Int)
    (maxMediaSize maxRetryTimes : Option Int) : Except String MediaRequest :=
  match h : rejection singlePartSize mediaSize maxMediaSize maxRetryTimes with
  | some message => .error message
  | none => .ok
    { headers
      singlePartSize := singlePartSize.toNat
      mediaSize := mediaSize.toNat
      maxMediaSize := maxMediaSize.map Int.toNat
      maxRetryTimes := maxRetryTimes.map Int.toNat
      singlePartSize_pos := by
        have := ((rejection_eq_none_iff ..).mp h).1
        omega
      maxMediaSize_pos := by
        intro bound hb
        obtain ⟨raw, hr, rfl⟩ := Option.map_eq_some_iff.mp hb
        have := ((rejection_eq_none_iff ..).mp h).2.2.1 raw hr
        omega
      mediaSize_le := by
        intro bound hb
        obtain ⟨raw, hr, rfl⟩ := Option.map_eq_some_iff.mp hb
        have := ((rejection_eq_none_iff ..).mp h).2.2.2.1 raw hr
        omega
      maxRetryTimes_pos := by
        intro times ht
        obtain ⟨raw, hr, rfl⟩ := Option.map_eq_some_iff.mp ht
        have := ((rejection_eq_none_iff ..).mp h).2.2.2.2 raw hr
        omega }

/-- Construction fails exactly on a rejected argument, with that check's message. -/
theorem construct_error_iff (headers : Option Headers) (singlePartSize mediaSize : Int)
    (maxMediaSize maxRetryTimes : Option Int) (message : String) :
    construct headers singlePartSize mediaSize maxMediaSize maxRetryTimes = .error message ↔
      rejection singlePartSize mediaSize maxMediaSize maxRetryTimes = some message := by
  unfold construct
  split
  · next m h => simp [h]
  · next h => simp [h]

end MediaRequest
end ScrapyCffi.Media
