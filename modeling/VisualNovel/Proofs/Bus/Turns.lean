import VisualNovel.Proofs.Bus.Scripts
/-!
# Deliveries in turn

What a delivery takes from the queue and what it adds to it is accounted for: the events that
waited, followed by those that are published from now on, are the events that will be delivered, in
this order (`Cascade.order`). A cascade that ends is carried through to its end
(`exhaust_of_cascade`), whatever the rounds it takes.
-/
namespace VisualNovel

/-- The delivery of an event, and the world in which it began. -/
structure Delivery (σ π : Type) where
  event : Event π
  start : σ

/-- No event waits and none is being delivered. -/
structure Bus.AtRest (b : Bus κ π) : Prop where
  queue : b.queue = []
  delivering : b.delivering = false

namespace Exchange
variable {σ κ π : Type} [DecidableEq κ] {x : Exchange σ κ π} {e : Event π}

/-! ## What a delivery adds to the queue -/

/-- The events that are published in a call. -/
def Conduct.published (H : x.Conduct) (c : Call σ κ π) : List (Event π) :=
  publications (H.deedsOf c)

/-- A call for an event takes place in one delivery: it begins and ends while the event is being
delivered, and what it publishes is added to the events that wait. -/
structure Conduct.Within (H : x.Conduct) (e : Event π) (c : Call σ κ π) : Prop where
  event : c.event = e
  before : (x.bus c.before).delivering = true
  after : (x.bus (x.call c.handler c.event c.before).1).delivering = true
  queue : (x.bus (x.call c.handler c.event c.before).1).queue =
    (x.bus c.before).queue ++ H.published c

/-- A handler that is called during a delivery stays within it. -/
theorem Conduct.within (hx : x.Lawful) (H : x.Conduct) (k : κ) {s : σ}
    (hs : (x.bus s).delivering = true) : H.Within e ⟨k, e, s⟩ := by
  obtain ⟨hstill, hqueue⟩ := (H.does k e s hs).queue hx hs
  exact ⟨rfl, hs, hstill, hqueue⟩

/-- The service of entries adds to the queue what the calls publish. -/
theorem Service.queue (hx : x.Lawful) (H : x.Conduct) {es : List (Entry κ)} {s : σ}
    {calls : List (Call σ κ π)} {r : σ × List (Entry κ) × Bool} (h : x.Service e es s calls r)
    (hs : (x.bus s).delivering = true) :
    (x.bus r.1).queue = (x.bus s).queue ++ calls.flatMap H.published ∧
      ∀ c ∈ calls, H.Within e c := by
  induction h with
  | done s => simp
  | @gone entry rest s calls s' spent consumed hgone h ih =>
    have hbus := hx.bus_modify (fun b => { b with serving := none }) s
    obtain ⟨hqueue, hwithin⟩ := ih (by rw [hbus]; exact hs)
    refine ⟨?_, hwithin⟩
    rw [hqueue, hbus]
  | @last entry rest s s' hlive hcall =>
    have hbus := hx.bus_modify (fun b => { b with serving := some entry.handler }) s
    have hwithin : H.Within e ⟨entry.handler, e, x.approach entry.handler s⟩ :=
      H.within hx entry.handler (by unfold approach; rw [hbus]; exact hs)
    have hinvoke := hx.bus_invoke (e := e) entry.handler (x.approach entry.handler s)
    simp only [hcall] at hinvoke
    refine ⟨?_, by simpa using hwithin⟩
    simp only [hinvoke, hwithin.queue, List.flatMap_cons, List.flatMap_nil, List.append_nil]
    unfold approach
    rw [hbus]
  | @next entry rest s s₁ calls s' spent consumed hlive hcall h ih =>
    have hbus := hx.bus_modify (fun b => { b with serving := some entry.handler }) s
    have hwithin : H.Within e ⟨entry.handler, e, x.approach entry.handler s⟩ :=
      H.within hx entry.handler (by unfold approach; rw [hbus]; exact hs)
    have hinvoke := hx.bus_invoke (e := e) entry.handler (x.approach entry.handler s)
    simp only [hcall] at hinvoke
    obtain ⟨hqueue, hrest⟩ := ih (by rw [hinvoke]; exact hwithin.after)
    refine ⟨?_, ?_⟩
    · simp only [hqueue, hinvoke, hwithin.queue, List.flatMap_cons, List.append_assoc]
      unfold approach
      rw [hbus]
    · intro c hc
      rcases List.mem_cons.1 hc with rfl | hc
      · exact hwithin
      · exact hrest c hc

/-- The calls of a delivery. -/
def callsOf (x : Exchange σ κ π) (d : Delivery σ π) : List (Call σ κ π) := x.calls d.event d.start

/-- The events that are published in a delivery, in order. -/
def Conduct.publishedIn (H : x.Conduct) (d : Delivery σ π) : List (Event π) :=
  (x.callsOf d).flatMap H.published

/-- A delivery adds to the queue what its calls publish, and all calls stay within it. -/
theorem deliver_queue (hx : x.Lawful) (H : x.Conduct) (e : Event π) (s : σ) :
    (x.bus (x.deliver e s).1).queue = (x.bus s).queue ++ H.publishedIn ⟨e, s⟩ ∧
      ∀ c ∈ x.calls e s, H.Within e c := by
  obtain ⟨s', spent, consumed, hservice, hdeliver, -⟩ := x.deliver_service e s
  have hbegin : x.bus (x.commence e s) = (x.bus s).begin ((x.bus s).table e.topic) :=
    hx.bus_modify _ s
  obtain ⟨hqueue, hwithin⟩ := hservice.queue hx H (by rw [hbegin]; rfl)
  refine ⟨?_, hwithin⟩
  rw [hdeliver]
  unfold conclude
  rw [hx.bus_modify]
  show (x.bus s').queue = _
  rw [hqueue, hbegin]
  rfl

/-! ## Cascades that end -/

/-- The deliveries of a cascade that ends: the first event that waits is delivered, then the first
that waits after that, until none waits. -/
inductive Cascade (x : Exchange σ κ π) : σ → List (Delivery σ π) → σ → Prop
  | done {s} (h : (x.bus s).queue = []) : Cascade x s [] s
  | next {s e rest log s'} (h : (x.bus s).queue = e :: rest)
      (hc : Cascade x (x.deliver e (x.modify (fun b => { b with queue := rest }) s)).1 log s') :
      Cascade x s (⟨e, x.modify (fun b => { b with queue := rest }) s⟩ :: log) s'

/-- In the end no event waits. -/
theorem Cascade.queue_nil {s s' : σ} {log : List (Delivery σ π)} (h : x.Cascade s log s') :
    (x.bus s').queue = [] := by
  induction h with
  | done h => exact h
  | next h hc ih => exact ih

/-- In the end no event is being delivered. -/
theorem Cascade.delivering (hx : x.Lawful) {s s' : σ} {log : List (Delivery σ π)}
    (h : x.Cascade s log s') (hs : (x.bus s).delivering = false) :
    (x.bus s').delivering = false := by
  induction h with
  | done h => exact hs
  | next h hc ih => exact ih (delivering_deliver hx.bus_withBus _)

/-- The events that wait and those that are published in the cascade are delivered, each once and
in this order. -/
theorem Cascade.order (hx : x.Lawful) (H : x.Conduct) {s s' : σ} {log : List (Delivery σ π)}
    (h : x.Cascade s log s') :
    log.map (·.event) = (x.bus s).queue ++ log.flatMap H.publishedIn := by
  induction h with
  | done h => simp [h]
  | @next s e rest log s' h hc ih =>
    have hqueue := (deliver_queue hx H e (x.modify (fun b => { b with queue := rest }) s)).1
    rw [hx.bus_modify] at hqueue
    rw [List.map_cons, List.flatMap_cons, ih, hqueue, h]
    simp

/-- The first deliveries of a cascade are those of a round. -/
theorem Cascade.drain {s s' : σ} {log : List (Delivery σ π)} (h : x.Cascade s log s')
    (count : Nat) : x.Cascade (x.drain count s) (log.drop count) s' := by
  induction count generalizing s log with
  | zero => exact h
  | succ count ih =>
    unfold Exchange.drain
    cases h with
    | done h =>
      rw [h]
      exact .done h
    | next h hc =>
      rw [h]
      exact ih hc

/-- A cascade that ends is carried through, if there are as many rounds as deliveries. -/
theorem exhaust_of_cascade {s s' : σ} {log : List (Delivery σ π)} (h : x.Cascade s log s')
    (rounds : Nat) (hrounds : log.length ≤ rounds) : x.exhaust rounds s = s' := by
  induction rounds generalizing s log with
  | zero =>
    cases h with
    | done h => rfl
    | next h hc => simp at hrounds
  | succ rounds ih =>
    cases h with
    | done h => exact exhaust_nil h _
    | @next _ e rest log _ h hc =>
      have hround := (Cascade.next h hc).drain (e :: rest).length
      unfold exhaust
      rw [h]
      refine ih hround ?_
      simp only [List.length_drop, List.length_cons] at hrounds ⊢
      omega

/-- The record of a cascade has the calls of its deliveries, one delivery after the other. -/
theorem Cascade.recorded {s s' : σ} {log : List (Delivery σ π)} (h : x.Cascade s log s')
    (calls₀ : List (Call σ κ π)) :
    ∃ log', x.recorded.Cascade (s, calls₀) log' (s', calls₀ ++ log.flatMap x.callsOf) ∧
      log'.length = log.length := by
  induction h generalizing calls₀ with
  | @done s h =>
    refine ⟨[], ?_, rfl⟩
    rw [List.flatMap_nil, List.append_nil]
    exact .done h
  | @next s e rest log s' h hc ih =>
    obtain ⟨log', hlog', hlength⟩ :=
      ih (calls₀ ++ x.calls e (x.modify (fun b => { b with queue := rest }) s))
    have hdeliver := x.deliver_recorded e (x.modify (fun b => { b with queue := rest }) s) calls₀
    refine ⟨⟨e, (x.modify (fun b => { b with queue := rest }) s, calls₀)⟩ :: log', ?_, ?_⟩
    · refine Cascade.next (x := x.recorded) h ?_
      rw [show x.recorded.modify (fun b => { b with queue := rest }) (s, calls₀) =
        (x.modify (fun b => { b with queue := rest }) s, calls₀) from rfl, hdeliver]
      simpa [callsOf, List.append_assoc] using hlog'
    · simp [hlength]

/-! ## Publications from outside -/

/-- The worlds that code outside comes to with a new bus, by deeds and whatever leaves the bus
alone, if the cascades of its publications end. -/
inductive Outside (x : Exchange σ κ π) : σ → Prop
  | fresh {s} (h : x.bus s = {}) : Outside x s
  | aside {s s'} (hs : Outside x s) (h : x.bus s' = x.bus s) : Outside x s'
  | deed {s} (hs : Outside x s) (rounds : Nat) (d : BusDeed κ π)
      (hends : ∀ e, d = .publish e →
        ∃ log s', x.Cascade (x.deliver e s).1 log s' ∧ log.length ≤ rounds) :
      Outside x (x.perform rounds d s)

/-- While no event is being delivered, one that is published is delivered at once, and then what it
brings about. -/
theorem publishUpTo_of_cascade {s s' : σ} {log : List (Delivery σ π)}
    (hs : (x.bus s).delivering = false) (h : x.Cascade (x.deliver e s).1 log s') {rounds : Nat}
    (hrounds : log.length ≤ rounds) :
    x.publishUpTo rounds e s = (x.modify Bus.rest s', (x.deliver e s).2) := by
  unfold publishUpTo
  rw [if_neg (by simp [hs])]
  simp only [exhaust_of_cascade h rounds hrounds]

theorem Cascade.atRest (hx : x.Lawful) {s s' : σ} {log : List (Delivery σ π)}
    (h : x.Cascade s log s') (hs : (x.bus s).delivering = false) :
    (x.bus (x.modify Bus.rest s')).AtRest := by
  rw [hx.bus_modify]
  exact ⟨h.queue_nil, h.delivering hx hs⟩

/-- A deed that publishes nothing leaves the bus at rest. -/
theorem perform_atRest (hx : x.Lawful) {s : σ} (hs : (x.bus s).AtRest) (rounds : Nat)
    {d : BusDeed κ π} (hd : d.publication? = none) : (x.bus (x.perform rounds d s)).AtRest := by
  obtain ⟨hdelivering, hqueue⟩ := (x.bus s).heed_eq (x.isLive · s) d
  rw [hx.bus_perform_quiet rounds hd]
  refine ⟨?_, hdelivering.trans hs.delivering⟩
  rw [hqueue, hs.queue]
  simp [publications, hd]

/-- Where code outside comes to, the bus is at rest. -/
theorem Outside.atRest (hx : x.Lawful) {s : σ} (h : x.Outside s) : (x.bus s).AtRest := by
  induction h with
  | fresh h => rw [h]; exact ⟨rfl, rfl⟩
  | aside hs h ih => rw [h]; exact ih
  | @deed s hs rounds d hends ih =>
    cases hd : d.publication? with
    | none => exact perform_atRest hx ih rounds hd
    | some e =>
      obtain rfl := BusDeed.publication?_eq_some.1 hd
      obtain ⟨log, s', hc, hrounds⟩ := hends e rfl
      simp only [perform, publishUpTo_of_cascade ih.delivering hc hrounds]
      exact hc.atRest hx (delivering_deliver hx.bus_withBus s)

end Exchange

/-! ## A relay -/

namespace Forum
open Exchange

/-- A forum where the host of a game starts a line, offers choices and takes leave, and a guest
reveals the line before it fails. -/
def relay : Forum where
  scripts := [
    ("host", [always (.publish .lineStarted (.obj [])), always (.publish .choicesShown (.obj [])),
      always (.unsubscribe "host" .gameStart)]),
    ("guest", [always (.publish .lineRevealed (.obj [])), ⟨.fail, none⟩])]

end Forum
end VisualNovel
