import VisualNovel.Proofs.Bus.Delivery
/-!
# What handlers do to the bus

Code acts on a bus in four ways: it subscribes a handler, unsubscribes one, clears subscriptions and
publishes events. A handler may do any number of these deeds, one after the other, and what it does
besides leaves the bus alone (`Conduct`). Its own publications go through the same `publish` as
those of code outside. While an event is being delivered they only come to wait
(`Does.queue`), so no delivery begins inside another.

The calls that a delivery makes can be recorded beside it (`recorded`). The record changes nothing
(`deliver_recorded`), and what the service of the entries does is told by cases (`Service`).
-/
namespace VisualNovel

/-- Something that code does to a bus. -/
inductive BusDeed (κ π : Type) where
  | subscribe (topic : Topic) (entry : Entry κ)
  | unsubscribe (topic : Topic) (handler : κ)
  | clear (topic : Option Topic)
  | publish (event : Event π)

/-- The event that a deed publishes. -/
def BusDeed.publication? : BusDeed κ π → Option (Event π)
  | .publish e => some e
  | _ => none

theorem BusDeed.publication?_eq_some {d : BusDeed κ π} {e : Event π} :
    d.publication? = some e ↔ d = .publish e := by
  cases d <;> simp [BusDeed.publication?]

/-- The events that deeds publish, in order. -/
def publications (ds : List (BusDeed κ π)) : List (Event π) := ds.filterMap BusDeed.publication?

theorem publications_append (ds ds' : List (BusDeed κ π)) :
    publications (ds ++ ds') = publications ds ++ publications ds' := List.filterMap_append

/-- What a deed makes of a bus that is delivering an event. A subscription whose priority does not
compare comes to nothing. -/
def Bus.heed [DecidableEq κ] (live : κ → Bool) (b : Bus κ π) : BusDeed κ π → Bus κ π
  | .subscribe t entry =>
    match b.subscribe t entry with
    | .ok b' => b'
    | .error _ => b
  | .unsubscribe t k => b.unsubscribe live t k
  | .clear t => b.clear t
  | .publish e => b.enqueue e

theorem Bus.subscribe_eq {b b' : Bus κ π} {t : Topic} {entry : Entry κ}
    (h : b.subscribe t entry = .ok b') :
    ∃ es, insertEntry entry (b.table t) = .ok es ∧ b' = b.setTable t es := by
  unfold Bus.subscribe at h
  cases hes : insertEntry entry (b.table t) with
  | error m => simp [hes, Except.map] at h
  | ok es => exact ⟨es, rfl, by simpa [hes, Except.map] using h.symm⟩

section Heed
variable [DecidableEq κ] (live : κ → Bool) (b : Bus κ π)

/-- A deed leaves the delivery as it is, and adds to the queue what it publishes. -/
theorem Bus.heed_eq (d : BusDeed κ π) :
    (b.heed live d).delivering = b.delivering ∧
      (b.heed live d).queue = b.queue ++ publications [d] := by
  cases d with
  | subscribe t entry =>
    simp only [Bus.heed]
    cases h : b.subscribe t entry with
    | error m => simp [publications, BusDeed.publication?]
    | ok b' =>
      obtain ⟨es, -, rfl⟩ := Bus.subscribe_eq h
      simp [Bus.setTable, publications, BusDeed.publication?]
  | unsubscribe t k =>
    simp [Bus.heed, Bus.unsubscribe, Bus.setTable, publications, BusDeed.publication?]
  | clear t => cases t <;> simp [Bus.heed, Bus.clear, publications, BusDeed.publication?]
  | publish e => simp [Bus.heed, Bus.enqueue, publications, BusDeed.publication?]

end Heed

/-- The entries that a call of this one spends. -/
def Entry.used (entry : Entry κ) : List (Entry κ) := if entry.oneShot then [entry] else []

namespace Exchange

/-- A call of a handler, and the world in which it was called. -/
structure Call (σ κ π : Type) where
  handler : κ
  event : Event π
  before : σ

variable {σ κ π : Type} {x : Exchange σ κ π} {e : Event π}

/-- The bus is a part of the world of its own, and reports do not concern it. -/
structure Lawful (x : Exchange σ κ π) : Prop where
  bus_withBus : ∀ b s, x.bus (x.withBus b s) = b
  bus_report : ∀ m s, x.bus (x.report m s) = x.bus s

theorem Lawful.bus_modify (hx : x.Lawful) (f : Bus κ π → Bus κ π) (s : σ) :
    x.bus (x.modify f s) = f (x.bus s) := hx.bus_withBus _ _

theorem Lawful.bus_invoke (hx : x.Lawful) (k : κ) (s : σ) :
    x.bus (x.invoke e k s).1 = x.bus (x.call k e s).1 := by
  unfold invoke
  simp only
  split
  · exact hx.bus_report _ _
  · rfl

/-! ## Deeds -/

section Deeds
variable [DecidableEq κ]

/-- Does a deed, where a cascade may take up to `rounds` rounds. -/
def perform (x : Exchange σ κ π) (rounds : Nat) (d : BusDeed κ π) (s : σ) : σ :=
  match d with
  | .publish e => (x.publishUpTo rounds e s).1
  | d => x.modify (·.heed (x.isLive · s) d) s

/-- Deeds lead from one world to another, and all that happens besides leaves the bus alone. -/
inductive Does (x : Exchange σ κ π) : List (BusDeed κ π) → σ → σ → Prop
  | rest {s s'} (h : x.bus s' = x.bus s) : Does x [] s s'
  | deed {d ds s s₁ s'} (h : x.bus s₁ = x.bus s)
      (hds : Does x ds (x.perform cascadeLimit d s₁) s') : Does x (d :: ds) s s'

/-- While an event is being delivered, another one that is published comes to wait. -/
theorem publishUpTo_of_delivering (x : Exchange σ κ π) (rounds : Nat) (e : Event π) {s : σ}
    (hs : (x.bus s).delivering = true) :
    x.publishUpTo rounds e s = (x.modify (·.enqueue e) s, false) := by
  unfold publishUpTo
  rw [if_pos hs]

/-- A deed that publishes nothing has its effect on the bus and no other. -/
theorem Lawful.bus_perform_quiet (hx : x.Lawful) (rounds : Nat) {d : BusDeed κ π}
    (hd : d.publication? = none) (s : σ) :
    x.bus (x.perform rounds d s) = (x.bus s).heed (x.isLive · s) d := by
  cases d with
  | publish e => cases hd
  | subscribe t entry => simp only [perform, hx.bus_modify]
  | unsubscribe t k => simp only [perform, hx.bus_modify]
  | clear t => simp only [perform, hx.bus_modify]

/-- While an event is being delivered every deed has its effect on the bus and no other. -/
theorem Lawful.bus_perform (hx : x.Lawful) (rounds : Nat) (d : BusDeed κ π) {s : σ}
    (hs : (x.bus s).delivering = true) :
    x.bus (x.perform rounds d s) = (x.bus s).heed (x.isLive · s) d := by
  cases hd : d.publication? with
  | none => exact hx.bus_perform_quiet rounds hd s
  | some e =>
    obtain rfl := BusDeed.publication?_eq_some.1 hd
    simp only [perform, x.publishUpTo_of_delivering rounds e hs, hx.bus_modify]
    rfl

theorem Lawful.bus_deed (hx : x.Lawful) {rounds : Nat} {d : BusDeed κ π} {s : σ}
    (hd : d.publication? = none ∨ (x.bus s).delivering = true) :
    x.bus (x.perform rounds d s) = (x.bus s).heed (x.isLive · s) d := by
  rcases hd with hd | hd
  · exact hx.bus_perform_quiet rounds hd s
  · exact hx.bus_perform rounds d hd

/-- What leaves the bus alone may come before deeds. -/
theorem Does.aside {ds : List (BusDeed κ π)} {s s₁ s' : σ} (hbus : x.bus s₁ = x.bus s)
    (h : x.Does ds s₁ s') : x.Does ds s s' := by
  cases h with
  | rest h => exact .rest (h.trans hbus)
  | deed h hds => exact .deed (h.trans hbus) hds

/-- While an event is being delivered deeds do not end the delivery, and what they publish comes to
wait. -/
theorem Does.queue (hx : x.Lawful) {ds : List (BusDeed κ π)} {s s' : σ} (h : x.Does ds s s')
    (hs : (x.bus s).delivering = true) :
    (x.bus s').delivering = true ∧ (x.bus s').queue = (x.bus s).queue ++ publications ds := by
  induction h with
  | rest h => rw [h]; exact ⟨hs, by simp [publications]⟩
  | @deed d ds s s₁ s' h hds ih =>
    have hs₁ : (x.bus s₁).delivering = true := by rw [h]; exact hs
    have hbus := hx.bus_perform cascadeLimit d hs₁
    obtain ⟨hstill, hadds⟩ := (x.bus s₁).heed_eq (x.isLive · s₁) d
    obtain ⟨hdelivering, hqueue⟩ := ih (by rw [hbus, hstill]; exact hs₁)
    refine ⟨hdelivering, ?_⟩
    rw [hqueue, hbus, hadds, h, List.append_assoc, ← publications_append]
    rfl

/-- What the handlers do when they are called during a delivery: deeds that depend on nothing but
the call. -/
structure Conduct (x : Exchange σ κ π) where
  deeds : κ → Event π → σ → List (BusDeed κ π)
  does : ∀ k e s, (x.bus s).delivering = true → x.Does (deeds k e s) s (x.call k e s).1

/-- The deeds of a call. -/
def Conduct.deedsOf (H : x.Conduct) (c : Call σ κ π) : List (BusDeed κ π) :=
  H.deeds c.handler c.event c.before

end Deeds

/-! ## Calls -/

/-- The exchange with a record of the calls. -/
def recorded (x : Exchange σ κ π) : Exchange (σ × List (Call σ κ π)) κ π where
  bus w := x.bus w.1
  withBus b w := (x.withBus b w.1, w.2)
  report m w := (x.report m w.1, w.2)
  isLive k w := x.isLive k w.1
  call k e w := (((x.call k e w.1).1, w.2 ++ [⟨k, e, w.1⟩]), (x.call k e w.1).2)

/-- The world in which a handler is called. -/
def approach (x : Exchange σ κ π) (k : κ) (s : σ) : σ :=
  x.modify (fun b => { b with serving := some k }) s

/-- The service of entries, case by case, with the calls it makes: the entry may be dead, its
handler may consume the event, or the service goes on. -/
inductive Service (x : Exchange σ κ π) (e : Event π) :
    List (Entry κ) → σ → List (Call σ κ π) → σ × List (Entry κ) × Bool → Prop
  | done (s) : Service x e [] s [] (s, [], false)
  | gone {entry rest s calls s' spent consumed}
      (hgone : (entry.weak && !x.isLive entry.handler s) = true)
      (h : Service x e rest (x.modify (fun b => { b with serving := none }) s) calls
        (s', spent, consumed)) :
      Service x e (entry :: rest) s calls (s', entry :: spent, consumed)
  | last {entry rest s s'} (hlive : (entry.weak && !x.isLive entry.handler s) = false)
      (hcall : x.invoke e entry.handler (x.approach entry.handler s) = (s', true)) :
      Service x e (entry :: rest) s [⟨entry.handler, e, x.approach entry.handler s⟩]
        (s', entry.used, true)
  | next {entry rest s s₁ calls s' spent consumed}
      (hlive : (entry.weak && !x.isLive entry.handler s) = false)
      (hcall : x.invoke e entry.handler (x.approach entry.handler s) = (s₁, false))
      (h : Service x e rest s₁ calls (s', spent, consumed)) :
      Service x e (entry :: rest) s (⟨entry.handler, e, x.approach entry.handler s⟩ :: calls)
        (s', entry.used ++ spent, consumed)

theorem invoke_recorded (x : Exchange σ κ π) (e : Event π) (k : κ) (s : σ)
    (calls : List (Call σ κ π)) :
    x.recorded.invoke e k (s, calls) =
      (((x.invoke e k s).1, calls ++ [⟨k, e, s⟩]), (x.invoke e k s).2) := by
  rcases hcall : x.call k e s with ⟨s', reply⟩
  have hrecord : x.recorded.call k e (s, calls) = ((s', calls ++ [⟨k, e, s⟩]), reply) := by
    simp [recorded, hcall]
  simp only [invoke, hcall, hrecord]
  cases reply.failed <;> rfl

/-- The service of entries is told by cases, and a record does not change it. -/
theorem serve_recorded (x : Exchange σ κ π) (e : Event π) (es : List (Entry κ)) (s : σ) :
    ∃ calls, x.Service e es s calls (x.serve e es s) ∧ ∀ calls₀,
      x.recorded.serve e es (s, calls₀) =
        (((x.serve e es s).1, calls₀ ++ calls), (x.serve e es s).2) := by
  induction es generalizing s with
  | nil => exact ⟨[], .done s, fun calls₀ => by simp [serve]⟩
  | cons entry rest ih =>
    unfold serve
    cases hgone : entry.weak && !x.isLive entry.handler s with
    | true =>
      obtain ⟨calls, hservice, hrecord⟩ := ih (x.modify (fun b => { b with serving := none }) s)
      refine ⟨calls, ?_, fun calls₀ => ?_⟩
      · simp only [if_true]
        exact .gone hgone hservice
      · have hdead : (entry.weak && !x.recorded.isLive entry.handler (s, calls₀)) = true := hgone
        simp only [hdead, if_true]
        rw [show x.recorded.modify (fun b => { b with serving := none }) (s, calls₀) =
          (x.modify (fun b => { b with serving := none }) s, calls₀) from rfl, hrecord]
    | false =>
      have hcalled (calls₀ : List (Call σ κ π)) :
          x.recorded.modify (fun b => { b with serving := some entry.handler }) (s, calls₀) =
            (x.approach entry.handler s, calls₀) := rfl
      have hlive (calls₀ : List (Call σ κ π)) :
          (entry.weak && !x.recorded.isLive entry.handler (s, calls₀)) = false := hgone
      rcases hcall : x.invoke e entry.handler (x.approach entry.handler s) with ⟨s₁, consumed⟩
      have hcall' := hcall
      unfold approach at hcall'
      cases consumed with
      | true =>
        refine ⟨[⟨entry.handler, e, x.approach entry.handler s⟩], ?_, fun calls₀ => ?_⟩
        · simp only [Bool.false_eq_true, if_false, hcall', if_true]
          exact .last hgone hcall
        · simp only [hlive, hcalled, invoke_recorded, hcall, hcall', Bool.false_eq_true, if_false,
            if_true]
      | false =>
        obtain ⟨calls, hservice, hrecord⟩ := ih s₁
        refine ⟨⟨entry.handler, e, x.approach entry.handler s⟩ :: calls, ?_, fun calls₀ => ?_⟩
        · simp only [Bool.false_eq_true, if_false, hcall']
          exact .next hgone hcall hservice
        · simp only [hlive, hcalled, invoke_recorded, hcall, hcall', Bool.false_eq_true, if_false,
            hrecord]
          simp

/-! ## One delivery -/

section Delivery
variable [DecidableEq κ]

/-- Begins the delivery of an event. -/
def commence (x : Exchange σ κ π) (e : Event π) (s : σ) : σ :=
  x.modify (·.begin ((x.bus s).table e.topic)) s

/-- Ends the delivery of an event that spent entries. -/
def conclude (x : Exchange σ κ π) (e : Event π) (spent : List (Entry κ)) (s : σ) : σ :=
  x.modify (fun b =>
    { b.setTable e.topic ((b.table e.topic).filter fun entry => !spent.any entry.same) with
      delivering := false }) s

/-- A delivery is the service of the entries that are there when it begins. -/
theorem deliver_of_service {x : Exchange σ κ π} {e : Event π} {s s' : σ} {spent : List (Entry κ)}
    {consumed : Bool}
    (h : x.serve e ((x.bus s).table e.topic) (x.commence e s) = (s', spent, consumed)) :
    x.deliver e s = (x.conclude e spent s', consumed) := by
  unfold commence at h
  simp only [deliver, h]
  rfl

/-- The calls of the delivery of an event. -/
def calls (x : Exchange σ κ π) (e : Event π) (s : σ) : List (Call σ κ π) :=
  (x.recorded.deliver e (s, [])).1.2

/-- What a delivery does is told by cases, and a record of the calls does not change it. -/
theorem deliver_service (x : Exchange σ κ π) (e : Event π) (s : σ) :
    ∃ s' spent consumed,
      x.Service e ((x.bus s).table e.topic) (x.commence e s) (x.calls e s) (s', spent, consumed) ∧
      x.deliver e s = (x.conclude e spent s', consumed) ∧
      ∀ calls₀, x.recorded.deliver e (s, calls₀) =
        ((x.conclude e spent s', calls₀ ++ x.calls e s), consumed) := by
  obtain ⟨calls, hservice, hrecord⟩ := x.serve_recorded e ((x.bus s).table e.topic) (x.commence e s)
  rcases hserve : x.serve e ((x.bus s).table e.topic) (x.commence e s) with ⟨s', spent, consumed⟩
  simp only [hserve] at hservice hrecord
  have hrecorded (calls₀ : List (Call σ κ π)) :
      x.recorded.deliver e (s, calls₀) = ((x.conclude e spent s', calls₀ ++ calls), consumed) := by
    rw [deliver_of_service (x := x.recorded) (s := (s, calls₀)) (hrecord calls₀)]
    rfl
  have hcalls : x.calls e s = calls := by
    unfold Exchange.calls
    rw [hrecorded, List.nil_append]
  rw [hcalls]
  exact ⟨s', spent, consumed, hservice, deliver_of_service hserve, hrecorded⟩

theorem deliver_recorded (x : Exchange σ κ π) (e : Event π) (s : σ)
    (calls₀ : List (Call σ κ π)) :
    x.recorded.deliver e (s, calls₀) =
      (((x.deliver e s).1, calls₀ ++ x.calls e s), (x.deliver e s).2) := by
  obtain ⟨s', spent, consumed, -, hdeliver, hrecorded⟩ := x.deliver_service e s
  rw [hdeliver, hrecorded]

end Delivery

end Exchange
end VisualNovel
