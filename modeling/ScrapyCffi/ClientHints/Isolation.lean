import ScrapyCffi.Base.Projection
import ScrapyCffi.ClientHints.Interceptor

/-!
# Isolation of client hints

What the interceptor knows for one session, origin and profile is moved by the headers of that
origin's responses and by what the spider resolves for it, and by nothing else, as long as no
response with such headers was redirected from another origin. What it injects comes behind the
caller's headers, under names that are not among them.
-/

namespace ScrapyCffi.ClientHints

open ScrapyCffi.Base

/-! ## One origin's policy -/

/-- What is known for one session, origin and profile. -/
@[ext]
structure Policy where
  requested : Dict Text Text
  values : Dict Text Text
  resolving : List (List (Text × Text))

/-- What an origin's response says, and whether it answers a request of the profile, or what a
resolver call for the origin ends with. -/
inductive Seen
  | headers (own : Bool) (accept : Option (List Text)) (clear : List Text)
  | resolved (n : Nat) (resolved : Resolved)
  deriving DecidableEq

variable (env : Environment)

/-- The value of a hint. -/
def Policy.getValue (p : Policy) (profile name : Text) : Option Text :=
  match p.values.get (env.lower name) with
  | some value => some value
  | none => (env.registry profile).bind fun spec ↦ spec.getClientHint env name

/-- The hints behind those that need no resolver. -/
def Policy.unresolved (p : Policy) (profile : Text) : List (Text × Text) → List (Text × Text) :=
  List.dropWhile fun (normalized, _) ↦
    normalized ∈ nativeDefaultClientHints || (p.getValue env profile normalized).isSome

/-- The hints of a request. -/
def Policy.headers (p : Policy) (profile : Text) : List (Text × Text) :=
  p.requested.entries.filterMap fun (normalized, requestedName) ↦
    if normalized ∈ nativeDefaultClientHints then none
    else (p.getValue env profile normalized).map (requestedName, ·)

/-- What `Clear-Site-Data` for client hints leaves. -/
def Policy.clear (p : Policy) : Policy := { p with requested := .empty, values := .empty }

/-- What `Accept-CH` changes. -/
def Policy.accept (p : Policy) (profile : Text) (own : Bool) (requested : Dict Text Text) :
    Policy where
  requested := requested
  values := p.values
  resolving :=
    if own then p.resolving ++ [p.unresolved env profile requested.entries] else p.resolving

/-- What the headers of a response change. -/
def Policy.respond (p : Policy) (profile : Text) (own : Bool) (accept : Option (List Text))
    (clear : List Text) : Policy :=
  let p := if clearsHints env clear then p.clear else p
  match accept with
  | none => p
  | some names =>
    p.accept env profile own (parseClientHintNames env (List.intercalate [','] names))

/-- What the return of a resolver call changes. -/
def Policy.resolve (p : Policy) (profile : Text) (n : Nat) (resolved : Resolved) : Policy :=
  match p.resolving[n]? with
  | some ((normalized, _) :: rest) =>
    match resolved with
    | .raised => { p with resolving := p.resolving.set n [] }
    | .value value =>
      let p := match value with
        | some value => { p with values := p.values.set (env.lower normalized) value }
        | none => p
      { p with resolving := p.resolving.set n (p.unresolved env profile rest) }
  | _ => p

/-- One observation. -/
def Policy.move (profile : Text) (p : Policy) : Seen → Policy
  | .headers own accept clear => p.respond env profile own accept clear
  | .resolved n resolved => p.resolve env profile n resolved

/-! ## The view of a state -/

/-- The policy for a session, an origin and a profile. -/
def State.policy (s : State) (session origin profile : Text) : Policy where
  requested := (s.sessions session).requestedNames origin
  values := (s.sessions session).values origin profile
  resolving := s.resolving (session, origin, profile)

/-- Whether a response has an `Accept-CH` header, or a `Clear-Site-Data` header for client hints. -/
def carriesHints (headers : List (Text × Text)) : Bool :=
  (headerValues env headers acceptCH).isSome ||
    clearsHints env ((headerValues env headers clearSiteData).getD [])

/-- What is seen of an event for a session, an origin and a profile: the headers of the origin's
own responses, by their effective URL, and the resolver's results. -/
def seen (defaultSessionId session origin profile : Text) : Event → Option Seen
  | .request _ => none
  | .response request response =>
    match handledFor env defaultSessionId request response with
    | none => none
    | some (session', _, profile') =>
      if session' = session ∧ carriesHints env response.headers ∧
          clientHintOrigin env response.effectiveUrl = .ok (some origin) then
        some (.headers (profile' = profile) (headerValues env response.headers acceptCH)
          ((headerValues env response.headers clearSiteData).getD []))
      else none
  | .resolved session' origin' profile' n resolved =>
    if session' = session ∧ origin' = origin ∧ profile' = profile then some (.resolved n resolved)
    else none

/-- A response with client-hint headers comes from the origin that was requested. -/
def OwnOrigin (defaultSessionId : Text) : Event → Prop
  | .response request response =>
    ∀ session origin profile,
      handledFor env defaultSessionId request response = some (session, origin, profile) →
      carriesHints env response.headers →
      clientHintOrigin env response.effectiveUrl = .ok (some origin)
  | _ => True

variable {env}

/-- The hints of a request are those of its policy. -/
theorem headersForRequest_eq (s : State) (session origin profile : Text) :
    (s.sessions session).headersForRequest env origin profile =
      (s.policy session origin profile).headers env profile := rfl

/-- Hints need the resolver by the values that are known. -/
theorem unresolved_eq {p : Policy} {hints : ClientHintsState} {origin profile : Text}
    (h : p.values = hints.values origin profile) (items : List (Text × Text)) :
    unresolved env hints origin profile items = p.unresolved env profile items := by
  have hvalue : ∀ name, hints.getValue env origin profile name = p.getValue env profile name :=
    fun name ↦ by
      cases hv : p.values.get (env.lower name) <;>
        simp only [ClientHintsState.getValue, Policy.getValue, ← h, hv]
  simp only [unresolved, Policy.unresolved, hvalue]

/-- What is left of an origin when site data are cleared. -/
theorem entry_afterClear (hints : ClientHintsState) (origin other : Text) (values : List Text) :
    (hints.afterClear env origin values).entry other =
      if clearsHints env values ∧ other = origin then OriginClientHints.empty
      else hints.entry other := by
  rw [ClientHintsState.afterClear]
  by_cases h : clearsHints env values
  · rw [if_pos h, ClientHintsState.entry_clearOrigin]
    simp only [h, true_and]
  · rw [if_neg h, if_neg fun hc ↦ h hc.1]

section Respond

variable {s : State} {session origin profile : Text} {headers : List (Text × Text)}

/-- A response without `Accept-CH` starts no handler. -/
theorem respond_of_none (h : headerValues env headers acceptCH = none) :
    s.respond env session origin profile headers =
      ⟨Function.update s.sessions session ((s.sessions session).afterClear env origin
        ((headerValues env headers clearSiteData).getD [])), s.resolving⟩ := by
  rw [State.respond, h]

variable (s session origin profile) in
/-- A response with `Accept-CH` starts one. -/
theorem respond_of_some {names : List Text} (h : headerValues env headers acceptCH = some names) :
    ∃ hints requested, requested = parseClientHintNames env (List.intercalate [','] names) ∧
      hints = ((s.sessions session).afterClear env origin
        ((headerValues env headers clearSiteData).getD [])).replaceRequested origin requested ∧
      s.respond env session origin profile headers =
        { sessions := Function.update s.sessions session hints
          resolving := Function.update s.resolving (session, origin, profile)
            (s.resolving (session, origin, profile) ++
              [unresolved env hints origin profile requested.entries]) } := by
  refine ⟨_, _, rfl, rfl, ?_⟩
  rw [State.respond, h]

/-- A response without client-hint headers changes nothing. -/
theorem respond_of_not_carries (h : carriesHints env headers = false) :
    s.respond env session origin profile headers = s := by
  rw [carriesHints, Bool.or_eq_false_iff, Option.isSome_eq_false_iff,
    Option.isNone_iff_eq_none] at h
  rw [respond_of_none h.1, ClientHintsState.afterClear, h.2]
  simp only [Bool.false_eq_true, if_false, Function.update_eq_self]

end Respond

/-! ## Policies after an event -/

section Policies

variable {session origin profile : Text}

/-- The policy of a session whose hints are replaced. -/
theorem policy_update_self (sessions : Text → ClientHintsState) (hints : ClientHintsState)
    (resolving : Text × Text × Text → List (List (Text × Text))) :
    State.policy ⟨Function.update sessions session hints, resolving⟩ session origin profile =
      ⟨hints.requestedNames origin, hints.values origin profile,
        resolving (session, origin, profile)⟩ := by
  simp only [State.policy, Function.update_self]

/-- The policy of another session. -/
theorem policy_update_of_ne {session' : Text} (h : session' ≠ session)
    (sessions : Text → ClientHintsState) (hints : ClientHintsState)
    (resolving : Text × Text × Text → List (List (Text × Text))) :
    State.policy ⟨Function.update sessions session hints, resolving⟩ session' origin profile =
      State.policy ⟨sessions, resolving⟩ session' origin profile := by
  simp only [State.policy, Function.update_of_ne h]

variable (env origin profile) in
/-- What is known of an origin after site data are cleared. -/
theorem policy_afterClear (hints : ClientHintsState) (values : List Text)
    (resolving : List (List (Text × Text))) :
    (⟨(hints.afterClear env origin values).requestedNames origin,
      (hints.afterClear env origin values).values origin profile, resolving⟩ : Policy) =
      if clearsHints env values then
        Policy.clear ⟨hints.requestedNames origin, hints.values origin profile, resolving⟩
      else ⟨hints.requestedNames origin, hints.values origin profile, resolving⟩ := by
  rw [ClientHintsState.requestedNames, ClientHintsState.values, entry_afterClear]
  by_cases h : clearsHints env values
  · rw [if_pos ⟨h, rfl⟩, if_pos h]
    rfl
  · rw [if_neg fun hc ↦ h hc.1, if_neg h]
    rfl

variable {s : State} {headers : List (Text × Text)}

/-- The policies of other sessions and origins stay. -/
theorem policy_respond_of_ne {session' origin' : Text} (profile' : Text)
    (h : session' ≠ session ∨ origin' ≠ origin) :
    (s.respond env session origin profile headers).policy session' origin' profile' =
      s.policy session' origin' profile' := by
  have hkey : (session', origin', profile') ≠ (session, origin, profile) := by
    rintro ⟨rfl, rfl, rfl⟩
    exact h.elim (absurd rfl) (absurd rfl)
  by_cases hsession : session' = session
  · have horigin : origin' ≠ origin := h.resolve_left fun hne ↦ hne hsession
    have hclear : ∀ values, ((s.sessions session).afterClear env origin values).entry origin' =
        (s.sessions session).entry origin' := fun values ↦ by
      rw [entry_afterClear, if_neg fun hc ↦ horigin hc.2]
    subst hsession
    cases haccept : headerValues env headers acceptCH with
    | none =>
      rw [respond_of_none haccept, policy_update_self, ClientHintsState.requestedNames,
        ClientHintsState.values, hclear]
      rfl
    | some names =>
      obtain ⟨hints, requested, -, rfl, hrespond⟩ := respond_of_some s
        session' origin profile haccept
      rw [hrespond, policy_update_self, ClientHintsState.requestedNames, ClientHintsState.values,
        ClientHintsState.entry_replaceRequested, if_neg horigin, hclear,
        Function.update_of_ne hkey]
      rfl
  · cases haccept : headerValues env headers acceptCH with
    | none =>
      rw [respond_of_none haccept, policy_update_of_ne hsession]
    | some names =>
      obtain ⟨hints, requested, -, -, hrespond⟩ := respond_of_some s
        session origin profile haccept
      rw [hrespond, policy_update_of_ne hsession]
      simp only [State.policy, Function.update_of_ne hkey]

/-- The policies of the origin that was asked are moved by the response's headers. -/
theorem policy_respond_self (profile' : Text) :
    (s.respond env session origin profile headers).policy session origin profile' =
      (s.policy session origin profile').respond env profile' (profile = profile')
        (headerValues env headers acceptCH) ((headerValues env headers clearSiteData).getD []) := by
  generalize hvalues : (headerValues env headers clearSiteData).getD [] = values
  have hclear := fun profile ↦ policy_afterClear env origin profile
    (s.sessions session) values (s.resolving (session, origin, profile))
  cases haccept : headerValues env headers acceptCH with
  | none =>
    rw [respond_of_none haccept, hvalues, policy_update_self]
    exact hclear profile'
  | some names =>
    obtain ⟨hints, requested, hrequested, hhints, hrespond⟩ := respond_of_some s
      session origin profile haccept
    rw [hvalues] at hhints
    have hentry : hints.entry origin =
        { ((s.sessions session).afterClear env origin values).entry origin with
          requested := requested } := by
      rw [hhints, ClientHintsState.entry_replaceRequested, if_pos rfl]
    have hknown : ∀ profile, hints.values origin profile =
        (if clearsHints env values then (s.policy session origin profile).clear
          else s.policy session origin profile).values := by
      intro profile
      rw [ClientHintsState.values, hentry]
      exact congrArg Policy.values (hclear profile)
    rw [hrespond, policy_update_self, ClientHintsState.requestedNames, hentry, hknown]
    show _ = Policy.accept env _ _ _ _
    rw [← hrequested]
    have hresolving : ∀ profile, (if clearsHints env values then
        (s.policy session origin profile).clear else s.policy session origin profile).resolving =
        s.resolving (session, origin, profile) := by
      intro profile
      split <;> rfl
    refine Policy.ext rfl rfl ?_
    show Function.update _ _ _ _ = if decide _ then _ else _
    by_cases hprofile : profile = profile'
    · subst hprofile
      rw [Function.update_self, if_pos (decide_eq_true rfl), hresolving]
      exact congrArg (fun handler ↦ _ ++ [handler]) (unresolved_eq (hknown profile).symm _)
    · rw [Function.update_of_ne (by simpa using Ne.symm hprofile),
        if_neg (by simpa using hprofile), hresolving]

/-- A handler that is not waiting takes no result. -/
theorem resolve_of_idle {n : Nat} (resolved : Resolved)
    (h : ∀ item rest, (s.resolving (session, origin, profile))[n]? ≠ some (item :: rest)) :
    s.resolve env session origin profile n resolved = s := by
  rw [State.resolve]
  split
  · next hrest => exact absurd hrest (h _ _)
  · rfl

/-- What a known value changes in an origin. -/
theorem values_setRuntimeValue (hints : ClientHintsState) (name value : Text) {profile' : Text} :
    (hints.setRuntimeValue env origin profile name value).values origin profile' =
      if profile' = profile then (hints.values origin profile).set (env.lower name) value
      else hints.values origin profile' := by
  rw [ClientHintsState.values, ClientHintsState.entry_setRuntimeValue, if_pos rfl, Dict.get_set]
  split <;> rfl

/-- The return of a resolver call moves the policy it was made for. -/
theorem policy_resolve_self (n : Nat) (resolved : Resolved) :
    (s.resolve env session origin profile n resolved).policy session origin profile =
      (s.policy session origin profile).resolve env profile n resolved := by
  by_cases hwaiting :
      ∃ item rest, (s.resolving (session, origin, profile))[n]? = some (item :: rest)
  · obtain ⟨⟨normalized, name⟩, rest, hhandler⟩ := hwaiting
    have hpolicy : (s.policy session origin profile).resolving[n]? =
        some ((normalized, name) :: rest) := hhandler
    rw [State.resolve, hhandler, Policy.resolve, hpolicy]
    cases resolved with
    | raised =>
      refine Policy.ext rfl rfl ?_
      exact Function.update_self _ _ _
    | value value =>
      cases value with
      | none =>
        have hentry : ((s.sessions session).markWarned env origin profile normalized).2.entry origin =
            (s.sessions session).entry origin := ClientHintsState.entry_markWarned env normalized
        refine (policy_update_self _ _ _).trans ?_
        rw [ClientHintsState.requestedNames, ClientHintsState.values, hentry, Function.update_self]
        refine Policy.ext rfl rfl ?_
        refine congrArg (List.set _ n) (unresolved_eq ?_ rest)
        rw [ClientHintsState.values, hentry]
        rfl
      | some value =>
        refine (policy_update_self _ _ _).trans ?_
        rw [Function.update_self, values_setRuntimeValue, if_pos rfl]
        refine Policy.ext ?_ rfl ?_
        · show ((ClientHintsState.setRuntimeValue env _ _ _ _ _).entry origin).requested = _
          rw [ClientHintsState.entry_setRuntimeValue, if_pos rfl]
          rfl
        · refine congrArg (List.set _ n) (unresolved_eq ?_ rest)
          rw [values_setRuntimeValue, if_pos rfl]
          rfl
  · rw [resolve_of_idle resolved fun item rest h ↦ hwaiting ⟨item, rest, h⟩, Policy.resolve]
    split
    · next hhandler => exact absurd ⟨_, _, hhandler⟩ hwaiting
    · rfl

/-- The return of a resolver call changes no other policy. -/
theorem policy_resolve_of_ne {session' origin' profile' : Text} (n : Nat) (resolved : Resolved)
    (h : ¬ (session = session' ∧ origin = origin' ∧ profile = profile')) :
    (s.resolve env session origin profile n resolved).policy session' origin' profile' =
      s.policy session' origin' profile' := by
  have hkey : (session', origin', profile') ≠ (session, origin, profile) := by
    rintro ⟨rfl, rfl, rfl⟩
    exact h ⟨rfl, rfl, rfl⟩
  by_cases hwaiting :
      ∃ item rest, (s.resolving (session, origin, profile))[n]? = some (item :: rest)
  · obtain ⟨⟨normalized, name⟩, rest, hhandler⟩ := hwaiting
    rw [State.resolve, hhandler]
    cases resolved with
    | raised => exact Policy.ext rfl rfl (Function.update_of_ne hkey _ _)
    | value value =>
      by_cases hsession : session' = session
      · subst hsession
        refine (policy_update_self _ _ _).trans ?_
        rw [Function.update_of_ne hkey]
        cases value with
        | none =>
          rw [ClientHintsState.requestedNames, ClientHintsState.values,
            ClientHintsState.entry_markWarned]
          rfl
        | some value =>
          by_cases horigin : origin' = origin
          · subst horigin
            have hprofile : profile' ≠ profile := fun he ↦ h ⟨rfl, rfl, he.symm⟩
            rw [values_setRuntimeValue, if_neg hprofile, ClientHintsState.requestedNames,
              ClientHintsState.entry_setRuntimeValue, if_pos rfl]
            rfl
          · rw [ClientHintsState.requestedNames, ClientHintsState.values,
              ClientHintsState.entry_setRuntimeValue, if_neg horigin]
            rfl
      · refine (policy_update_of_ne hsession _ _ _).trans ?_
        exact Policy.ext rfl rfl (Function.update_of_ne hkey _ _)
  · rw [resolve_of_idle resolved fun item rest h ↦ hwaiting ⟨item, rest, h⟩]

end Policies

/-- Policies move with what is seen for them. -/
theorem policy_step (env : Environment) (defaultSessionId session origin profile : Text) (s : State)
    (e : Event) (h : OwnOrigin env defaultSessionId e) :
    (s.step env defaultSessionId e).policy session origin profile =
      (seen env defaultSessionId session origin profile e).elim (s.policy session origin profile)
        ((s.policy session origin profile).move env profile) := by
  cases e with
  | request => rfl
  | resolved session' origin' profile' n resolved =>
    rw [State.step, seen]
    split
    · next hkey =>
      obtain ⟨rfl, rfl, rfl⟩ := hkey
      exact policy_resolve_self n resolved
    · next hkey => exact policy_resolve_of_ne n resolved hkey
  | response request response =>
    rw [State.step, seen]
    cases hhandled : handledFor env defaultSessionId request response with
    | none => rfl
    | some key =>
      obtain ⟨session', origin', profile'⟩ := key
      show (s.respond env session' origin' profile' response.headers).policy _ _ _ =
        Option.elim (if _ then _ else _) _ _
      by_cases hcarries : carriesHints env response.headers = true
      · have hown := h session' origin' profile' hhandled hcarries
        by_cases hkey : session' = session ∧ origin' = origin
        · obtain ⟨rfl, rfl⟩ := hkey
          rw [if_pos ⟨rfl, hcarries, hown⟩, policy_respond_self]
          rfl
        · rw [if_neg, policy_respond_of_ne]
          · rfl
          · by_cases hsession : session = session'
            · exact .inr fun he ↦ hkey ⟨hsession.symm, he.symm⟩
            · exact .inl hsession
          · rintro ⟨hsession, -, horigin⟩
            rw [hown, Except.ok.injEq, Option.some.injEq] at horigin
            exact hkey ⟨hsession, horigin⟩
      · rw [respond_of_not_carries (by simpa using hcarries), if_neg fun hc ↦ hcarries hc.2.1]
        rfl

/-- The view of one session, origin and profile. -/
def policyView (env : Environment) (defaultSessionId session origin profile : Text) :
    Projection State Event Policy Seen where
  step s e := s.step env defaultSessionId e
  view s := s.policy session origin profile
  observe := seen env defaultSessionId session origin profile
  move := Policy.move env profile
  guard := OwnOrigin env defaultSessionId
  view_step := policy_step env defaultSessionId session origin profile

/-- The state after some events. -/
def run (env : Environment) (defaultSessionId : Text) (events : List Event) : State :=
  events.foldl (fun s e ↦ s.step env defaultSessionId e) State.initial

/-! ## Injection -/

/-- The names of the headers in a container, in lower case. -/
def Headers.names (env : Environment) (headers : Headers) : List Text :=
  headers.entries.map fun entry ↦ env.lower entry.1

/-- Headers that come behind those of the caller in the same container, each under a name of its
own. -/
structure Injected (env : Environment) (headers result : Headers) (added : List (Text × Text)) :
    Prop where
  entries : result.entries = headers.entries ++ added
  isPairs : result.isPairs = headers.isPairs
  nodup : (added.map fun entry ↦ env.lower entry.1).Nodup
  fresh : ∀ entry ∈ added, env.lower entry.1 ∉ headers.names env

theorem hasRequestHeader_iff {headers : Headers} {name : Text} :
    hasRequestHeader env headers name = true ↔ env.lower name ∈ headers.names env := by
  simp only [hasRequestHeader, Headers.names, List.any_eq_true, List.mem_map, decide_eq_true_eq]

/-- A missing header comes last. -/
theorem entries_appendRequestHeader {headers : Headers} {name : Text} (value : Text)
    (hnone : headers ≠ .none) (h : hasRequestHeader env headers name = false) :
    (appendRequestHeader headers name value).entries = headers.entries ++ [(name, value)] := by
  cases headers with
  | none => exact absurd rfl hnone
  | pairs entries => rfl
  | mapping d =>
    refine Dict.assign_of_not_mem fun hmem ↦ ?_
    obtain ⟨entry, hentry, rfl⟩ := List.mem_map.mp hmem
    have hhas : hasRequestHeader env (.mapping d) entry.1 = true :=
      hasRequestHeader_iff.mpr (List.mem_map.mpr ⟨entry, hentry, rfl⟩)
    rw [hhas] at h
    cases h

theorem injectHeaders_cons (headers : Headers) (hint : Text × Text) (rest : List (Text × Text)) :
    injectHeaders env headers (hint :: rest) =
      injectHeaders env (if hasRequestHeader env headers hint.1 then headers
        else appendRequestHeader headers hint.1 hint.2) rest := rfl

variable (env) in
/-- The loop adds headers behind the caller's, under names of their own. -/
theorem injected_injectHeaders (hints : List (Text × Text)) {headers : Headers}
    (hnone : headers ≠ .none) :
    ∃ added, added.Sublist hints ∧
      Injected env headers (injectHeaders env headers hints) added := by
  induction hints generalizing headers with
  | nil => exact ⟨[], List.Sublist.refl _, (List.append_nil _).symm, rfl, List.nodup_nil, by simp⟩
  | cons hint rest ih =>
    rw [injectHeaders_cons]
    cases hhas : hasRequestHeader env headers hint.1 with
    | true =>
      obtain ⟨added, hsublist, hadded⟩ := ih hnone
      rw [if_pos rfl]
      exact ⟨added, hsublist.cons _, hadded⟩
    | false =>
      have hentries := entries_appendRequestHeader hint.2 hnone hhas
      have hne : appendRequestHeader headers hint.1 hint.2 ≠ .none := by
        cases headers <;> simp_all [appendRequestHeader]
      have hpairs : (appendRequestHeader headers hint.1 hint.2).isPairs = headers.isPairs := by
        cases headers <;> rfl
      have hnames : (appendRequestHeader headers hint.1 hint.2).names env =
          headers.names env ++ [env.lower hint.1] := by
        rw [Headers.names, hentries, List.map_append]
        rfl
      obtain ⟨added, hsublist, hadded⟩ := ih hne
      rw [if_neg Bool.false_ne_true]
      refine ⟨hint :: added, hsublist.cons_cons _, ?_, hadded.isPairs.trans hpairs, ?_, ?_⟩
      · exact hadded.entries.trans (by rw [hentries, List.append_assoc]; rfl)
      · rw [List.map_cons, List.nodup_cons]
        refine ⟨fun hmem ↦ ?_, hadded.nodup⟩
        obtain ⟨entry, hentry, hname⟩ := List.mem_map.mp hmem
        refine hadded.fresh entry hentry ?_
        rw [hnames, hname]
        exact List.mem_append_right _ List.mem_cons_self
      · intro entry hentry
        rcases List.mem_cons.mp hentry with rfl | hentry
        · exact fun hmem ↦ by simp [hasRequestHeader_iff.mpr hmem] at hhas
        · intro hmem
          refine hadded.fresh entry hentry ?_
          rw [hnames]
          exact List.mem_append_left _ hmem

/-- What a request leaves the interceptor with. -/
theorem injected_requestIntercept {defaultSessionId : Text} {s : State} {request : Request}
    {result : Headers} (h : requestIntercept env defaultSessionId s request = .ok result) :
    ∃ added, Injected env request.headers result added := by
  have hsame : Injected env request.headers request.headers [] :=
    ⟨(List.append_nil _).symm, rfl, List.nodup_nil, by simp⟩
  rw [requestIntercept] at h
  split at h
  · cases h
    exact ⟨[], hsame⟩
  · split at h
    · cases h
    · cases h
      exact ⟨[], hsame⟩
    · cases h
      split
      · next hnone =>
        obtain ⟨added, -, hadded⟩ := injected_injectHeaders env _
          (by simp : Headers.mapping .empty ≠ .none)
        rw [hnone]
        exact ⟨added, hadded.entries, hadded.isPairs, hadded.nodup, hadded.fresh⟩
      · next hnone =>
        obtain ⟨added, -, hadded⟩ := injected_injectHeaders env _ hnone
        exact ⟨added, hadded⟩

/-- A request finds its hints in the policy for its session, origin and profile. -/
theorem requestIntercept_eq_of_policy_eq {defaultSessionId : Text} {s t : State} {request : Request}
    {origin profile : Text} (hprofile : request.profile = some profile)
    (horigin : clientHintOrigin env request.url = .ok (some origin))
    (h : s.policy (sessionKey defaultSessionId request.sessionId) origin profile =
      t.policy (sessionKey defaultSessionId request.sessionId) origin profile) :
    requestIntercept env defaultSessionId s request =
      requestIntercept env defaultSessionId t request := by
  rw [requestIntercept, requestIntercept, hprofile, horigin]
  show Except.ok _ = Except.ok _
  rw [headersForRequest_eq, headersForRequest_eq, h]

/-- ASCII lower case, URLs `https://host/path` without a port, and one profile with one hint. -/
def asciiEnvironment : Environment where
  lower := List.map Char.toLower
  isSpace c := c = ' '
  urlsplit url := .ok ⟨url.takeWhile (· ≠ ':'), some ((url.drop 8).takeWhile (· ≠ '/')), .ok none⟩
  registry profile := if profile = "p".toList then some ⟨[("DPR".toList, "2".toList)]⟩ else none

/-- A request for a URL in session `s` with profile `p`. -/
def profiledRequest (url : String) : Request where
  isHttp := true
  sessionId := "s".toList
  url := url.toList
  impersonate := some "p".toList
  headers := .none

/-- A response with `Accept-CH: DPR`. -/
def acceptingResponse (effectiveUrl : String) : Response where
  isHttp := true
  effectiveUrl := effectiveUrl.toList
  headers := [("Accept-CH".toList, "DPR".toList)]

end ScrapyCffi.ClientHints
