import LogRelay.Proofs.History
import LogRelay.Scenario.Host

/-!
# Every call has a broadcast of its own

A listener with an inbox undergoes what the history says of it, in that order: it is
told that it is connected or disconnected, and it is handed logs.  Every log comes in a
broadcast that is made for this call, with the job of the listener and without a
payload.  A payload that is attached later changes this one broadcast.
-/

namespace LogRelay

variable {δ : Type}

/-- What happens to a listener that has this job, in that order. -/
def History.eventsOf (job : JobIdentity) (listener : ListenerId) :
    History → List (ListenerEvent δ)
  | [] => []
  | .connected _ told :: older =>
      if told = listener then eventsOf job listener older ++ [.connected]
      else eventsOf job listener older
  | .disconnected _ told :: older =>
      if told = listener then eventsOf job listener older ++ [.disconnected]
      else eventsOf job listener older
  | .delivered receiver log :: older =>
      if receiver = listener then eventsOf job listener older ++ [.log { log, job }]
      else eventsOf job listener older
  | _ :: older => eventsOf job listener older

namespace Endpoint

/-- What an event does to a listener; one that breaks down stays as it is. -/
def undergo (endpoint : Endpoint δ) : ListenerEvent δ → Endpoint δ
  | .connected => endpoint.connect
  | .disconnected => endpoint.disconnect
  | .log broadcast => (endpoint.handle? (.ok broadcast)).getD endpoint
  | .undecoded error => (endpoint.handle? (.error error)).getD endpoint

/-- The listener is an inbox that is read, with nothing before it. -/
structure IsPlain (endpoint : Endpoint δ) : Prop where
  decoding : endpoint.decoding = none
  isOpen : endpoint.isOpen = true

theorem job_forward (endpoint : Endpoint δ) (event : ListenerEvent δ) :
    (endpoint.forward event).job = endpoint.job := by
  unfold forward
  split
  all_goals rfl

theorem job_handle? (endpoint : Endpoint δ) (result : Except DecodeError (Broadcast δ)) :
    ((endpoint.handle? result).getD endpoint).job = endpoint.job := by
  unfold handle?
  split
  next => exact job_forward ..
  next listener hdecoding =>
    cases hresult : listener.handle? result with
    | none => rfl
    | some found =>
        obtain ⟨passed, later⟩ := found
        cases passed with
        | none => rfl
        | some passed => exact job_forward ..

theorem job_undergo (endpoint : Endpoint δ) (event : ListenerEvent δ) :
    (endpoint.undergo event).job = endpoint.job := by
  cases event with
  | connected => exact job_forward ..
  | disconnected => exact job_forward ..
  | log broadcast => exact job_handle? ..
  | undecoded error => exact job_handle? ..

theorem job_foldl_undergo (events : List (ListenerEvent δ)) (endpoint : Endpoint δ) :
    (events.foldl undergo endpoint).job = endpoint.job := by
  induction events generalizing endpoint with
  | nil => rfl
  | cons event rest ih => exact (ih _).trans (endpoint.job_undergo event)

theorem IsPlain.undergo_eq {endpoint : Endpoint δ} (h : endpoint.IsPlain)
    (event : ListenerEvent δ) :
    endpoint.undergo event = { endpoint with received := endpoint.received ++ [event] } := by
  cases event
  all_goals simp [undergo, connect, disconnect, handle?, forward, ListenerEvent.ofResult,
    h.decoding, h.isOpen]

/-- A plain inbox keeps everything in order. -/
theorem IsPlain.foldl_undergo {endpoint : Endpoint δ} (h : endpoint.IsPlain)
    (events : List (ListenerEvent δ)) :
    events.foldl undergo endpoint =
      { endpoint with received := endpoint.received ++ events } := by
  induction events generalizing endpoint with
  | nil => simp
  | cons event rest ih =>
      have hplain : IsPlain { endpoint with received := endpoint.received ++ [event] } :=
        ⟨h.decoding, h.isOpen⟩
      rw [List.foldl_cons, h.undergo_eq, ih hplain]
      simp

end Endpoint

namespace Host

/-! ## What a report shows of a history -/

/-- Every listener undergoes what happens to it, whatever else happens. -/
theorem getElem?_foldl_notify (history : History) (endpoints : List (Endpoint Payload))
    (listener : ListenerId) :
    (history.reverse.foldl notify endpoints)[listener]? =
      endpoints[listener]?.map fun endpoint =>
        (history.eventsOf endpoint.job listener).foldl Endpoint.undergo endpoint := by
  induction history with
  | nil => simp [History.eventsOf]
  | cons effect older ih =>
      -- The latest effect is the last one that the endpoints learn of.
      rw [List.reverse_cons, List.foldl_append, List.foldl_cons, List.foldl_nil]
      cases effect
      case connected address told =>
        rw [notify, List.getElem?_modify, ih, Option.map_eq_map, Option.map_map]
        by_cases htold : told = listener
        · simp [htold, History.eventsOf, Endpoint.undergo, Function.comp_def]
        · simp [htold, History.eventsOf, Function.comp_def]
      case disconnected address told =>
        rw [notify, List.getElem?_modify, ih, Option.map_eq_map, Option.map_map]
        by_cases htold : told = listener
        · simp [htold, History.eventsOf, Endpoint.undergo, Function.comp_def]
        · simp [htold, History.eventsOf, Function.comp_def]
      case delivered receiver log =>
        rw [notify, List.getElem?_modify, ih, Option.map_eq_map, Option.map_map]
        by_cases hreceiver : receiver = listener
        · simp [hreceiver, History.eventsOf, Endpoint.undergo, Endpoint.deliver?,
            Endpoint.job_foldl_undergo, Function.comp_def]
        · simp [hreceiver, History.eventsOf, Function.comp_def]
      all_goals exact ih

/-- The broadcasts among the events are those of the calls. -/
theorem filterMap_broadcastOf?_eventsOf (job : JobIdentity) (listener : ListenerId)
    (history : History) :
    (history.eventsOf job listener).filterMap broadcastOf? =
      (history.calls listener).map fun log => { log, job } := by
  induction history with
  | nil => rfl
  | cons effect older ih =>
      cases effect
      case connected address told =>
        by_cases htold : told = listener
        · rw [History.eventsOf, if_pos htold, List.filterMap_append, ih]
          exact List.append_nil _
        · rw [History.eventsOf, if_neg htold, ih]
          rfl
      case disconnected address told =>
        by_cases htold : told = listener
        · rw [History.eventsOf, if_pos htold, List.filterMap_append, ih]
          exact List.append_nil _
        · rw [History.eventsOf, if_neg htold, ih]
          rfl
      case delivered receiver log =>
        by_cases hreceiver : receiver = listener
        · simpa [History.eventsOf, hreceiver, broadcastOf?] using ih
        · simpa [History.eventsOf, hreceiver] using ih
      all_goals exact ih

/-- A report adds to the broadcasts of a plain listener a fresh one for each call. -/
theorem getElem?_deliveries_takeReport {host : Host} {listener : ListenerId}
    {endpoint : Endpoint Payload} {earlier : List (Broadcast Payload)} (result : ActionResult)
    (hendpoint : host.endpoints[listener]? = some endpoint) (hplain : endpoint.IsPlain)
    (hreceived : endpoint.received = [])
    (hearlier : host.deliveries[listener]? = some earlier) :
    (host.takeReport result).2.deliveries[listener]? =
      some (earlier ++ (host.world.machine.history.calls listener).map fun log =>
        { log, job := endpoint.job }) := by
  have heffects : host.world.machine.trace.reverse.map (·.2) =
      host.world.machine.history.reverse := by
    rw [Machine.history, List.map_reverse]
  simp only [takeReport, heffects, List.getElem?_zipWith, hearlier, List.getElem?_map,
    getElem?_foldl_notify, hendpoint, Option.map_some, hplain.foldl_undergo, hreceived,
    List.nil_append, filterMap_broadcastOf?_eventsOf]

/-! ## Attaching a payload -/

/-- The broadcast that a listener has received at this place. -/
def broadcastAt (host : Host) (listener : ListenerId) (place : Nat) :
    Option (Broadcast Payload) :=
  (host.deliveries[listener]?.getD [])[place]?

/-- Nothing differs between the hosts but the broadcasts in their hands, and of these at most the
one that the listener has received at this place. -/
structure DiffersAt (listener : ListenerId) (place : Nat) (host later : Host) : Prop where
  world : later.world = host.world
  endpoints : later.endpoints = host.endpoints
  store : later.store = host.store
  others : ∀ other otherPlace, (other, otherPlace) ≠ (listener, place) →
    later.broadcastAt other otherPlace = host.broadcastAt other otherPlace

theorem DiffersAt.refl (listener : ListenerId) (place : Nat) (host : Host) :
    DiffersAt listener place host host :=
  ⟨rfl, rfl, rfl, fun _ _ _ => rfl⟩

/-- A payload that is attached to a broadcast is seen on no other one. -/
theorem differsAt_attach (host : Host) (listener : ListenerId) (place : Nat)
    (payload : Payload) :
    DiffersAt listener place host
      (host.perform (.onBroadcast listener place (.attach payload))).2 := by
  rw [perform]
  split
  next broadcast hbroadcast =>
    rw [onBroadcast]
    split
    next attached hattached =>
      refine ⟨rfl, rfl, rfl, fun other otherPlace hother => ?_⟩
      simp only [broadcastAt, List.getElem?_modify]
      by_cases heq : listener = other
      · subst heq
        have hplace : place ≠ otherPlace := fun h => hother (by rw [h])
        cases host.deliveries[listener]? with
        | none => simp
        | some broadcasts => simp [hplace]
      · simp [heq]
    next => exact .refl listener place host
  next => exact .refl listener place host

end Host

end LogRelay
