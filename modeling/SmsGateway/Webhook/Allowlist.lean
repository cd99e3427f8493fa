import SmsGateway.Webhook.Mirror

/-!
# Callback hosts and the allowlist

A URL is checked where a callback is enqueued. The worker's request comes later: from the job
as it was stored, by a process that may have another allowlist, and wherever the receivers
redirect it.
-/

namespace SmsGateway.Webhook.Gateway

open SmsGateway LogStore Pool Webhook
open Lib

/-- Under an allowlist every request goes to one of its hosts. -/
def StaysOnAllowlist (s : State) : Prop :=
  ∀ r ∈ s.requests, r.allowedHosts ≠ [] → onAllowlist r.allowedHosts r.url = true

section

variable (newURL : JsString → Option Url) (resolve : Url → JsString → Option Url)

/-- The receivers redirect to no URL of http(s) off the allowlist. -/
def staysOn (allowedHosts : List JsString) : Url → List Answer → Bool
  | url, .redirect location :: answers =>
      match resolve url location with
      | some target =>
          (!isHttp target || onAllowlist allowedHosts target) && staysOn allowedHosts target answers
      | none => true
  | _, _ => true

/-- The process that starts allows the callbacks it finds in the queue, and the receivers of a
callback stay on the allowlist. -/
def stays (s : State) : Event → Bool
  | .restart config _ => config.allowedHosts.isEmpty ||
      s.waiting.all fun w => isAllowedUrl newURL w.job.callbackUrl config.allowedHosts
  | .deliver k answers => s.config.allowedHosts.isEmpty ||
      match s.waiting[k]? with
      | some w =>
          match newURL w.job.callbackUrl with
          | some url => staysOn resolve s.config.allowedHosts url answers
          | none => true
      | none => true
  | _ => true

end

/-! ## One request -/

section

variable {newURL : JsString → Option Url} {resolve : Url → JsString → Option Url}

theorem onAllowlist_of_allowed {url : JsString} {parsed : Url} {allowedHosts : List JsString}
    (hurl : newURL url = some parsed) (hne : allowedHosts ≠ [])
    (h : isAllowedUrl newURL url allowedHosts = true) : onAllowlist allowedHosts parsed = true := by
  have hpos : allowedHosts.length > 0 := List.length_pos_of_ne_nil hne
  simp only [isAllowedUrl, hurl, hpos, if_true] at h
  cases hhttp : isHttp parsed with
  | false => simp [hhttp] at h
  | true => simpa [onAllowlist, hhttp] using h

/-- The requests of a callback stay where its URL and the redirects are. -/
theorem follow_onAllowlist {allowedHosts : List JsString} (answers : List Answer)
    (redirects : Nat) (url : Url) (hurl : isHttp url = true → onAllowlist allowedHosts url = true)
    (hstays : staysOn resolve allowedHosts url answers = true) :
    ∀ u ∈ (follow resolve redirects url answers).1, onAllowlist allowedHosts u = true := by
  induction answers generalizing redirects url with
  | nil => simp [follow]
  | cons answer answers ih =>
      unfold follow
      cases hhttp : isHttp url with
      | false => simp
      | true =>
          have hself : ∀ u ∈ [url], onAllowlist allowedHosts u = true := by
            intro u hu
            rw [List.mem_singleton.mp hu]
            exact hurl hhttp
          rw [if_pos rfl]
          cases answer with
          | response status => exact hself
          | failed => exact hself
          | redirect location =>
              cases redirects with
              | zero => exact hself
              | succ redirects =>
                  rw [staysOn] at hstays
                  cases htarget : resolve url location with
                  | none =>
                      simp only [htarget]
                      exact hself
                  | some target =>
                      simp only [htarget, Bool.and_eq_true, Bool.or_eq_true, Bool.not_eq_true'] at hstays
                      have hnext : isHttp target = true → onAllowlist allowedHosts target = true := by
                        intro ht
                        rcases hstays.1 with hf | ho
                        · rw [hf] at ht
                          cases ht
                        · exact ho
                      simp only [htarget]
                      intro u hu
                      rcases List.mem_cons.mp hu with rfl | hu
                      · exact hurl hhttp
                      · exact ih redirects target hnext hstays.2 u hu

theorem enqueueWebhook_allowed {config : Config} {entry : Option Row} {attempt : Option Nat}
    {occurredAt : JsString} {job : Job}
    (h : enqueueWebhook newURL config entry attempt occurredAt = some job) :
    isAllowedUrl newURL job.callbackUrl config.allowedHosts = true := by
  unfold enqueueWebhook at h
  split at h
  · cases h
  · split at h
    · cases h
    · split at h
      · cases h
      · dsimp only at h
        split at h
        · cases h
        · split at h
          · cases h
          case isFalse hallowed =>
            obtain rfl := Option.some.inj h
            simpa using hallowed

theorem entryOf_allowed {s : State} {e : SendQueue.Event} {occurredAt : JsString} {entry : Entry}
    {job : Job} (h : entryOf newURL s e occurredAt = some entry) (hjob : entry.callback = some job) :
    isAllowedUrl newURL job.callbackUrl s.config.allowedHosts = true := by
  cases e with
  | post row modem =>
      obtain rfl := Option.some.inj h
      cases hjob
  | _ =>
      rw [entryOf_eq (by rintro row modem ⟨⟩)] at h
      obtain ⟨⟨x, patch⟩, -, hp⟩ := Option.bind_eq_some_iff.mp h
      obtain ⟨row, -, rfl⟩ := Option.map_eq_some_iff.mp hp
      change callbackOf newURL s.config _ _ _ _ _ = some job at hjob
      unfold callbackOf at hjob
      split at hjob
      · exact enqueueWebhook_allowed hjob
      · cases hjob

/-! ## Runs -/

/-- The jobs in the queue pass the check of the process that will deliver them. -/
structure AllowlistInv (newURL : JsString → Option Url) (s : State) : Prop where
  waiting : ∀ w ∈ s.waiting, s.config.allowedHosts ≠ [] →
    isAllowedUrl newURL w.job.callbackUrl s.config.allowedHosts = true
  requests : StaysOnAllowlist s

theorem allowlistInv_start (config : Config) (pool : ModemPool) :
    AllowlistInv newURL (start config pool) := ⟨nofun, nofun⟩

theorem allowlistInv_step {s s' : State} {e : Event} (h : AllowlistInv newURL s)
    (hstays : stays newURL resolve s e = true) (hstep : step newURL resolve s e = some s') :
    AllowlistInv newURL s' := by
  cases e with
  | send e occurredAt =>
      obtain ⟨queue, -, -, rfl⟩ := step_send hstep
      refine ⟨?_, h.requests⟩
      intro w hw hne
      rcases List.mem_append.mp hw with hw | hw
      · exact h.waiting w hw hne
      · obtain ⟨job, hjob, rfl⟩ := Option.map_eq_some_iff.mp (Option.mem_toList.mp hw)
        obtain ⟨entry, hentry, hcallback⟩ := Option.bind_eq_some_iff.mp hjob
        exact entryOf_allowed (s := s) hentry hcallback
  | restart config pool =>
      obtain ⟨queue, -, rfl⟩ := step_restart hstep
      refine ⟨?_, h.requests⟩
      intro w hw hne
      rw [stays, Bool.or_eq_true, List.isEmpty_iff] at hstays
      rcases hstays with hempty | hall
      · exact absurd hempty hne
      · exact List.all_eq_true.mp hall w hw
  | deliver k answers =>
      obtain ⟨w, waiting, hw, hwaiting, rfl⟩ := step_deliver hstep
      refine ⟨?_, ?_⟩
      · intro w' hw' hne
        rcases hwaiting with rfl | rfl
        · exact h.waiting w' (List.mem_of_mem_eraseIdx hw') hne
        · rcases List.mem_or_eq_of_mem_set hw' with hmem | rfl
          · exact h.waiting w' hmem hne
          · exact h.waiting w (List.mem_of_getElem? hw) hne
      · intro r hr hne
        rcases List.mem_append.mp hr with hr | hr
        · exact h.requests r hr hne
        · obtain ⟨u, hu, rfl⟩ := List.mem_map.mp hr
          have hallowed := h.waiting w (List.mem_of_getElem? hw) hne
          rw [stays, hw, Bool.or_eq_true, List.isEmpty_iff] at hstays
          cases hurl : newURL w.job.callbackUrl with
          | none =>
              simp only [fetch, hurl] at hu
              cases hu
          | some url =>
              simp only [fetch, hurl] at hu
              simp only [hurl] at hstays
              have hon := onAllowlist_of_allowed hurl hne hallowed
              exact follow_onAllowlist answers maxRedirects url (fun _ => hon)
                (hstays.resolve_left hne) u hu

/-- The worker stays on the allowlist in every run whose restarts find only callbacks that
their allowlist allows, and whose receivers redirect to no other host. -/
theorem staysOnAllowlist {config : Config} {pool : ModemPool} {es : List Event} {s : State}
    (h : run newURL resolve (start config pool) es = some s)
    (hes : Runs.allSteps (step newURL resolve) (stays newURL resolve) (start config pool) es = true) :
    StaysOnAllowlist s :=
  (Runs.allSteps_induct (P := AllowlistInv newURL)
    (fun _ _ _ hs hstays hstep => allowlistInv_step hs hstays hstep)
    (allowlistInv_start config pool) hes h).requests

end

/-- A callback is delivered by the process that has enqueued it. -/
def delivered : List Event := retriedSend ++ [.deliver 0 [.response 200]]

def noRedirect : Url → JsString → Option Url := fun _ _ => none

theorem delivered_isSome : (run hooksURL noRedirect (start hooks onePool) delivered).isSome = true := by
  decide +kernel

theorem staysOnAllowlist_delivered : StaysOnAllowlist
    ((run hooksURL noRedirect (start hooks onePool) delivered).get delivered_isSome) :=
  staysOnAllowlist (Option.some_get delivered_isSome).symm (by decide +kernel)

/-- The process that delivers the callback allows another host only. -/
def tightened : List Event :=
  retriedSend ++ [.restart { hooks with allowedHosts := [js "crm.example"] } onePool,
    .deliver 0 [.response 200]]

/-- The receiver redirects to a host inside. -/
def redirected : List Event :=
  retriedSend ++ [.deliver 0 [.redirect (js "http://10.0.0.1/"), .response 200]]

def toInside : Url → JsString → Option Url := fun _ location =>
  if location = js "http://10.0.0.1/" then some ⟨location, js "http:", js "10.0.0.1"⟩ else none

instance (s : State) : Decidable (StaysOnAllowlist s) :=
  inferInstanceAs (Decidable (∀ r ∈ s.requests, r.allowedHosts ≠ [] → onAllowlist r.allowedHosts r.url = true))

/-- Either way a request leaves the allowlist. -/
theorem callbacks_leave_allowlist :
    (∃ s, run hooksURL noRedirect (start hooks onePool) tightened = some s ∧ ¬ StaysOnAllowlist s) ∧
    ∃ s, run hooksURL toInside (start hooks onePool) redirected = some s ∧ ¬ StaysOnAllowlist s := by
  have htightened : (run hooksURL noRedirect (start hooks onePool) tightened).any
      (fun s => !decide (StaysOnAllowlist s)) = true := by decide +kernel
  have hredirected : (run hooksURL toInside (start hooks onePool) redirected).any
      (fun s => !decide (StaysOnAllowlist s)) = true := by decide +kernel
  obtain ⟨s, hs, hleaves⟩ := Option.any_eq_true _ _ |>.mp htightened
  obtain ⟨s', hs', hleaves'⟩ := Option.any_eq_true _ _ |>.mp hredirected
  exact ⟨⟨s, hs, by simpa using hleaves⟩, s', hs', by simpa using hleaves'⟩

end SmsGateway.Webhook.Gateway
