import VisualNovel.Proofs.Bus.Ranks
import VisualNovel.Proofs.Bus.Scripts
/-!
# The order of service

A delivery calls the handlers of the table that it began with, in its order, up to the first that
consumes the event (`Service.answers`). What the handlers do meanwhile makes no difference to that:
it amends the tables for later deliveries, deed by deed (`Service.table`), and the end of the
delivery takes the spent entries away (`deliver_table`). So wherever code comes to, outside or in a
handler, every table is ordered (`Reaches.ordered`).
-/
namespace VisualNovel.Exchange
variable {σ κ π : Type} {x : Exchange σ κ π} {e : Event π}

/-- What a handler left behind when it was called. -/
def reply (x : Exchange σ κ π) (c : Call σ κ π) : Reply := (x.call c.handler c.event c.before).2

/-- How the entries of a delivery answer to the event: the handlers of those that are served are
called in their order, none but the last consumes the event, and the last does if some entry is not
served. -/
structure Answers (x : Exchange σ κ π) (e : Event π) (served unserved : List (Entry κ))
    (calls : List (Call σ κ π)) : Prop where
  handlers : calls.map (·.handler) = served.map (·.handler)
  event : ∀ c ∈ calls, c.event = e
  passed : ∀ c ∈ calls.dropLast, (x.reply c).consumed = false
  stopped : unserved ≠ [] → ∃ c ∈ calls.getLast?, (x.reply c).consumed = true

/-- Where all entries are alive, the service calls their handlers up to the first that consumes the
event, and spends the one-shot entries among those it served. -/
theorem Service.answers {es : List (Entry κ)} {s : σ} {calls : List (Call σ κ π)}
    {r : σ × List (Entry κ) × Bool} (h : x.Service e es s calls r)
    (hstrong : ∀ a ∈ es, a.weak = false) :
    ∃ served unserved, es = served ++ unserved ∧ x.Answers e served unserved calls ∧
      r.2.1 = served.filter (·.oneShot) := by
  induction h with
  | done s => exact ⟨[], [], rfl, ⟨rfl, by simp, by simp, by simp⟩, rfl⟩
  | gone hgone h ih =>
    have := hstrong _ (List.mem_cons_self ..)
    simp [this] at hgone
  | @last entry rest s s' hlive hcall =>
    have hconsumed : (x.reply ⟨entry.handler, e, x.approach entry.handler s⟩).consumed = true :=
      congrArg Prod.snd hcall
    refine ⟨[entry], rest, rfl, ⟨rfl, by simp, by simp, ?_⟩, ?_⟩
    · intro _
      exact ⟨_, rfl, hconsumed⟩
    · unfold Entry.used
      cases hone : entry.oneShot <;> simp [hone]
  | @next entry rest s s₁ calls s' spent consumed hlive hcall h ih =>
    obtain ⟨served, unserved, rfl, hanswers, hspent⟩ :=
      ih fun a ha => hstrong a (List.mem_cons_of_mem _ ha)
    have hconsumed : (x.reply ⟨entry.handler, e, x.approach entry.handler s⟩).consumed = false :=
      congrArg Prod.snd hcall
    refine ⟨entry :: served, unserved, rfl, ⟨?_, ?_, ?_, ?_⟩, ?_⟩
    · simp [hanswers.handlers]
    · intro c hc
      rcases List.mem_cons.1 hc with rfl | hc
      · rfl
      · exact hanswers.event c hc
    · intro c hc
      cases calls with
      | nil => simp at hc
      | cons c' calls =>
        rw [List.dropLast_cons_cons] at hc
        rcases List.mem_cons.1 hc with rfl | hc
        · exact hconsumed
        · exact hanswers.passed c hc
    · intro hunserved
      obtain ⟨c, hc, hlast⟩ := hanswers.stopped hunserved
      refine ⟨c, ?_, hlast⟩
      cases calls with
      | nil => simp at hc
      | cons c' calls => rwa [List.getLast?_cons_cons]
    · simp only at hspent ⊢
      rw [hspent]
      unfold Entry.used
      cases hone : entry.oneShot <;> simp [hone]

/-- To come to a handler makes no difference to the tables and to the delivery. -/
theorem approach_table (hx : x.Lawful) (k : κ) (s : σ) (t : Topic) :
    (x.bus (x.approach k s)).table t = (x.bus s).table t ∧
      (x.bus (x.approach k s)).delivering = (x.bus s).delivering := by
  unfold approach
  rw [hx.bus_modify]
  exact ⟨rfl, rfl⟩

variable [DecidableEq κ] {t : Topic} {past : List (BusDeed κ π)}

/-- Deeds that are done during a delivery make of a table what they make of it one by one. -/
theorem Does.table (hx : x.Lawful) {ds : List (BusDeed κ π)} {s s' : σ} (h : x.Does ds s s')
    (hs : (x.bus s).delivering = true) (hpast : Ordered t past ((x.bus s).table t))
    (hfirm : ∀ d ∈ past ++ ds, d.IsFirm) :
    (x.bus s').table t = amended t ((x.bus s).table t) ds := by
  induction h generalizing past with
  | rest h => rw [h]; rfl
  | @deed d ds s s₁ s' h hds ih =>
    rw [← h] at hs hpast ⊢
    have hbus := hx.bus_perform cascadeLimit d hs
    have htable := Bus.table_heed (x.isLive · s₁) (x.bus s₁) d t
      (hpast.firm fun d' hd' => hfirm d' (by simp [hd']))
    have hnext := hpast.amend (fun d' hd' => hfirm d' (by simp [hd'])) (hfirm d (by simp))
    have hstill : (x.bus (x.perform cascadeLimit d s₁)).delivering = true := by
      rw [hbus, ((x.bus s₁).heed_eq (x.isLive · s₁) d).1]
      exact hs
    rw [← htable, ← hbus] at hnext
    rw [ih hstill hnext fun d' hd' => hfirm d' (by simpa using hd'), hbus, htable]
    rfl

/-- A call makes of a table what its deeds make of it, and leaves the delivery under way. -/
theorem Conduct.call_table (hx : x.Lawful) (H : x.Conduct) (k : κ) {s s' : σ} {consumed : Bool}
    (hcall : x.invoke e k (x.approach k s) = (s', consumed)) (hs : (x.bus s).delivering = true)
    (hpast : Ordered t past ((x.bus s).table t))
    (hfirm : ∀ d ∈ past ++ H.deedsOf ⟨k, e, x.approach k s⟩, d.IsFirm) :
    (x.bus s').table t = amended t ((x.bus s).table t) (H.deedsOf ⟨k, e, x.approach k s⟩) ∧
      (x.bus s').delivering = true := by
  obtain ⟨htable, hdelivering⟩ := approach_table hx k s t
  rw [hs] at hdelivering
  have hdoes := H.does k e (x.approach k s) hdelivering
  have hinvoke := hx.bus_invoke (e := e) k (x.approach k s)
  simp only [hcall] at hinvoke
  rw [hinvoke]
  refine ⟨?_, (hdoes.queue hx hdelivering).1⟩
  rw [← htable] at hpast ⊢
  exact hdoes.table hx hdelivering hpast hfirm

/-- Where a service that began its calls with others goes on: where the next handler is called, or in
the world that it ends in. -/
def onward (last : σ) : List (Call σ κ π) → σ
  | [] => last
  | c :: _ => c.before

/-- The first calls of a service make of a table what their deeds make of it. -/
theorem Service.table (hx : x.Lawful) (H : x.Conduct) {es : List (Entry κ)} {s : σ}
    {calls : List (Call σ κ π)} {r : σ × List (Entry κ) × Bool} (h : x.Service e es s calls r)
    (hs : (x.bus s).delivering = true) (hpast : Ordered t past ((x.bus s).table t))
    {before behind : List (Call σ κ π)} (hsplit : calls = before ++ behind)
    (hfirm : ∀ d ∈ past ++ before.flatMap H.deedsOf, d.IsFirm) :
    (x.bus (onward r.1 behind)).table t =
      amended t ((x.bus s).table t) (before.flatMap H.deedsOf) := by
  induction h generalizing past before with
  | done s =>
    obtain ⟨rfl, rfl⟩ := List.append_eq_nil_iff.1 hsplit.symm
    rfl
  | @gone entry rest s calls s' spent consumed hgone h ih =>
    have hbus := hx.bus_modify (fun b => { b with serving := none }) s
    have htable : (x.bus (x.modify (fun b => { b with serving := none }) s)).table t =
      (x.bus s).table t := by rw [hbus]; rfl
    rw [← htable] at hpast ⊢
    exact ih (by rw [hbus]; exact hs) hpast hsplit hfirm
  | @last entry rest s s' hlive hcall =>
    cases before with
    | nil =>
      obtain rfl : [_] = behind := hsplit
      exact (approach_table hx entry.handler s t).1
    | cons c before =>
      obtain ⟨rfl, hnil⟩ := List.cons.inj hsplit
      obtain ⟨rfl, rfl⟩ := List.append_eq_nil_iff.1 hnil.symm
      simp only [List.flatMap_cons, List.flatMap_nil, List.append_nil] at hfirm ⊢
      exact (H.call_table hx entry.handler hcall hs hpast hfirm).1
  | @next entry rest s s₁ calls s' spent consumed hlive hcall h ih =>
    cases before with
    | nil =>
      obtain rfl : _ :: calls = behind := hsplit
      exact (approach_table hx entry.handler s t).1
    | cons c before =>
      obtain ⟨rfl, htail⟩ := List.cons.inj hsplit
      rw [List.flatMap_cons, ← List.append_assoc] at hfirm
      have hhere : ∀ d ∈ past ++ H.deedsOf ⟨entry.handler, e, x.approach entry.handler s⟩,
        d.IsFirm := fun d hd => hfirm d (List.mem_append_left _ hd)
      obtain ⟨htable, hstill⟩ := H.call_table hx entry.handler hcall hs hpast hhere
      have hnext := hpast.amended hhere
      rw [← htable] at hnext
      rw [ih hstill hnext htail hfirm, htable, List.flatMap_cons, amended_append]

/-- The table of a topic as calls leave it that begin in a world. -/
def Conduct.leaves (H : x.Conduct) (t : Topic) (s : σ) (calls : List (Call σ κ π)) :
    List (Entry κ) := amended t ((x.bus s).table t) (calls.flatMap H.deedsOf)

/-- What a delivery makes of a table: its calls amend it, and in the end the entries of its topic go
that equal a one-shot entry that was served. Each handler is called when those before it are done. -/
theorem deliver_table (hx : x.Lawful) (H : x.Conduct) (e : Event π) {s : σ}
    (hpast : ∀ t, Ordered t past ((x.bus s).table t)) (hfirm : ∀ d ∈ past, d.IsFirm) :
    ∃ served unserved, (x.bus s).table e.topic = served ++ unserved ∧
      x.Answers e served unserved (x.calls e s) ∧
      ((∀ d ∈ past ++ (x.calls e s).flatMap H.deedsOf, d.IsFirm) → ∀ t,
        (x.bus (x.deliver e s).1).table t =
          if t = e.topic then
            (H.leaves t s (x.calls e s)).filter fun a => !(served.filter (·.oneShot)).any a.same
          else H.leaves t s (x.calls e s)) ∧
      ∀ before c behind, x.calls e s = before ++ c :: behind →
        (∀ d ∈ past ++ before.flatMap H.deedsOf, d.IsFirm) → ∀ t,
          (x.bus c.before).table t = H.leaves t s before := by
  obtain ⟨s', spent, consumed, hservice, hdeliver, -⟩ := x.deliver_service e s
  have hbegin : x.bus (x.commence e s) = (x.bus s).begin ((x.bus s).table e.topic) :=
    hx.bus_modify _ s
  have htable (t : Topic) : (x.bus (x.commence e s)).table t = (x.bus s).table t := by
    rw [hbegin]
    rfl
  have hamended (t : Topic) {before behind : List (Call σ κ π)}
      (hsplit : x.calls e s = before ++ behind)
      (hbefore : ∀ d ∈ past ++ before.flatMap H.deedsOf, d.IsFirm) :
      (x.bus (onward s' behind)).table t = H.leaves t s before := by
    have h := hservice.table (t := t) hx H (by rw [hbegin]; rfl) (by rw [htable t]; exact hpast t)
      hsplit hbefore
    rw [htable] at h
    exact h
  obtain ⟨served, unserved, hsplit, hanswers, hspent⟩ := hservice.answers fun a ha =>
    ((hpast e.topic).firm hfirm a ha).strong
  simp only at hspent
  refine ⟨served, unserved, hsplit, hanswers, ?_, ?_⟩
  · intro hall t
    have hleaves : (x.bus s').table t = H.leaves t s (x.calls e s) :=
      hamended t (List.append_nil _).symm hall
    rw [hdeliver]
    unfold conclude
    rw [hx.bus_modify]
    show ((x.bus s').setTable e.topic _).table t = _
    rw [Bus.table_setTable, ← hleaves, hspent]
    by_cases ht : t = e.topic
    · subst ht
      simp
    · simp [ht]
  · intro before c behind h hbefore t
    exact hamended t h hbefore

/-! ## What a bus comes to -/

/-- The worlds that code comes to with a new bus, outside and in handlers, and the deeds that were
done until then. A deed is done by code outside, which then publishes nothing, or by a handler. An
event is delivered because code outside publishes it, or because it was the first that waited. -/
inductive Conduct.Reaches (H : x.Conduct) : List (BusDeed κ π) → σ → Prop
  | fresh {s} (h : x.bus s = {}) : Reaches H [] s
  | aside {past s s'} (hs : Reaches H past s) (h : x.bus s' = x.bus s) : Reaches H past s'
  | deed {past s} (hs : Reaches H past s) (d : BusDeed κ π)
      (hd : d.publication? = none ∨ (x.bus s).delivering = true) :
      Reaches H (past ++ [d]) (x.perform cascadeLimit d s)
  | called {past s e before c behind} (hs : Reaches H past s)
      (hout : (x.bus s).delivering = false) (hc : x.calls e s = before ++ c :: behind) :
      Reaches H (past ++ before.flatMap H.deedsOf) c.before
  | delivered {past s} (hs : Reaches H past s) (hout : (x.bus s).delivering = false)
      (e : Event π) : Reaches H (past ++ (x.calls e s).flatMap H.deedsOf) (x.deliver e s).1
  | taken {past s e rest} (hs : Reaches H past s) (hqueue : (x.bus s).queue = e :: rest) :
      Reaches H past (x.modify (fun b => { b with queue := rest }) s)
  | rested {past s} (hs : Reaches H past s) : Reaches H past (x.modify Bus.rest s)

/-- Wherever code comes to, the tables are ordered. -/
theorem Conduct.Reaches.ordered (hx : x.Lawful) {H : x.Conduct} {s : σ} (h : H.Reaches past s)
    (hfirm : ∀ d ∈ past, d.IsFirm) (t : Topic) : Ordered t past ((x.bus s).table t) := by
  induction h generalizing t with
  | fresh h =>
    rw [h]
    exact ⟨[], List.nil_sublist _, .nil⟩
  | aside hs h ih =>
    rw [h]
    exact ih hfirm t
  | @deed past s hs d hd ih =>
    have hpast : ∀ d ∈ past, d.IsFirm := fun d' hd' => hfirm d' (by simp [hd'])
    rw [hx.bus_deed hd, Bus.table_heed _ _ _ _ ((ih hpast t).firm hpast)]
    exact (ih hpast t).amend hpast (hfirm d (by simp))
  | @called past s e before c behind hs hout hc ih =>
    have hpast : ∀ d ∈ past, d.IsFirm := fun d hd => hfirm d (List.mem_append_left _ hd)
    obtain ⟨-, -, -, -, -, hcalled⟩ := deliver_table hx H e (ih hpast) hpast
    rw [hcalled before c behind hc hfirm t]
    exact (ih hpast t).amended hfirm
  | @delivered past s hs hout e ih =>
    have hpast : ∀ d ∈ past, d.IsFirm := fun d hd => hfirm d (List.mem_append_left _ hd)
    obtain ⟨served, -, -, -, hdelivered, -⟩ := deliver_table hx H e (ih hpast) hpast
    have hleaves : Ordered t (past ++ (x.calls e s).flatMap H.deedsOf)
        (H.leaves t s (x.calls e s)) := (ih hpast t).amended hfirm
    rw [hdelivered hfirm t]
    split
    · exact hleaves.filter _
    · exact hleaves
  | taken hs hqueue ih =>
    rw [hx.bus_modify]
    exact ih hfirm t
  | rested hs ih =>
    rw [hx.bus_modify]
    exact ih hfirm t

/-! ## Publications -/

variable {H : x.Conduct}

/-- A round takes code to a world that it reaches. -/
theorem Conduct.Reaches.drain (hx : x.Lawful) {s : σ} (h : H.Reaches past s)
    (hout : (x.bus s).delivering = false) (count : Nat) :
    ∃ later, H.Reaches (past ++ later) (x.drain count s) ∧
      (x.bus (x.drain count s)).delivering = false := by
  induction count generalizing past s with
  | zero => exact ⟨[], by rw [List.append_nil]; exact h, hout⟩
  | succ count ih =>
    unfold Exchange.drain
    cases hqueue : (x.bus s).queue with
    | nil => exact ⟨[], by rw [List.append_nil]; exact h, hout⟩
    | cons e rest =>
      have htaken : (x.bus (x.modify (fun b => { b with queue := rest }) s)).delivering =
          false := by
        rw [hx.bus_modify]
        exact hout
      obtain ⟨later, hreaches, hdelivering⟩ :=
        ih ((h.taken hqueue).delivered htaken e) (delivering_deliver hx.bus_withBus _)
      exact ⟨_, by simpa [List.append_assoc] using hreaches, hdelivering⟩

/-- Rounds take code to a world that it reaches. -/
theorem Conduct.Reaches.exhaust (hx : x.Lawful) {s : σ} (h : H.Reaches past s)
    (hout : (x.bus s).delivering = false) (rounds : Nat) :
    ∃ later, H.Reaches (past ++ later) (x.exhaust rounds s) := by
  induction rounds generalizing past s with
  | zero => exact ⟨[], by rw [List.append_nil]; exact h⟩
  | succ rounds ih =>
    unfold Exchange.exhaust
    cases hqueue : (x.bus s).queue with
    | nil => exact ⟨[], by rw [List.append_nil]; exact h⟩
    | cons e rest =>
      obtain ⟨later, hround, hdelivering⟩ := h.drain hx hout (e :: rest).length
      obtain ⟨later', hreaches⟩ := ih hround hdelivering
      exact ⟨later ++ later', by simpa [List.append_assoc] using hreaches⟩

/-- A publication takes code to a world that it reaches. -/
theorem Conduct.Reaches.publish (hx : x.Lawful) {s : σ} (h : H.Reaches past s)
    (hout : (x.bus s).delivering = false) (rounds : Nat) (e : Event π) :
    ∃ later, H.Reaches (past ++ later) (x.publishUpTo rounds e s).1 := by
  obtain ⟨later, hreaches⟩ :=
    (h.delivered hout e).exhaust hx (delivering_deliver hx.bus_withBus s) rounds
  refine ⟨(x.calls e s).flatMap H.deedsOf ++ later, ?_⟩
  unfold publishUpTo
  rw [if_neg (by simp [hout]), ← List.append_assoc]
  exact hreaches.rested

/-- **Handlers are called by rank.** Wherever code comes to, outside or in a handler, the tables are
ordered by rank and then by subscription. An event that is delivered there is delivered to the
handlers of its table, each entry once and in this order, up to the first that consumes it, whatever
the handlers do or fail to do. And to publish an event takes code to such a world again. -/
theorem handlers_are_called_by_rank (hx : x.Lawful) {s : σ} (hs : H.Reaches past s)
    (hfirm : ∀ d ∈ past, d.IsFirm) :
    (∀ t, Ordered t past ((x.bus s).table t)) ∧
      ((x.bus s).delivering = false → ∀ e,
        (∃ served unserved, (x.bus s).table e.topic = served ++ unserved ∧
          x.Answers e served unserved (x.calls e s)) ∧
        ∀ rounds, ∃ later, H.Reaches (past ++ later) (x.publishUpTo rounds e s).1) := by
  refine ⟨hs.ordered hx hfirm, fun hout e => ⟨?_, fun rounds => hs.publish hx hout rounds e⟩⟩
  obtain ⟨served, unserved, hsplit, hanswers, -⟩ :=
    deliver_table hx H e (hs.ordered hx hfirm) hfirm
  exact ⟨served, unserved, hsplit, hanswers⟩

end VisualNovel.Exchange

/-! ## A quarrel -/

namespace VisualNovel.Forum
open Exchange

/-- A forum where the keenest of the handlers of a line sends another one away, takes in a new one
and fails, and one of the others consumes the line. -/
def quarrel : Forum where
  scripts := [
    ("mild", []),
    ("keen", [always (.unsubscribe "mild" .lineStarted),
      always (.subscribe "late" .lineStarted (.int 5) false false), ⟨.fail, none⟩]),
    ("greedy", [⟨.consume, none⟩]),
    ("late", [])]

/-- The subscriptions of its handlers. -/
def quarrelDeeds : List (BusDeed String (List (String × Json))) :=
  [.subscribe .lineStarted ⟨.int 1, "mild", false, false⟩,
    .subscribe .lineStarted ⟨.int 10, "keen", false, false⟩,
    .subscribe .lineStarted ⟨.int 1, "greedy", false, false⟩,
    .subscribe .lineStarted ⟨.int 0, "late", false, false⟩]

/-- The forum with its handlers subscribed. -/
def openQuarrel : Forum := quarrelDeeds.foldl (fun f d => exchange.perform cascadeLimit d f) quarrel

theorem quarrelDeeds_firm : ∀ d ∈ quarrelDeeds, d.IsFirm := by
  intro d hd
  simp only [quarrelDeeds, List.mem_cons, List.not_mem_nil, or_false] at hd
  rcases hd with rfl | rfl | rfl | rfl <;> exact ⟨rfl, rfl⟩

theorem openQuarrel_reached : conduct.Reaches quarrelDeeds openQuarrel :=
  ((((Conduct.Reaches.fresh rfl).deed _ (.inl rfl)).deed _ (.inl rfl)).deed _ (.inl rfl)).deed _
    (.inl rfl)

/-- The start of a line. -/
def lineStarts : News := ⟨.lineStarted, []⟩

theorem quarrel_by_rank : conduct.Reaches quarrelDeeds openQuarrel ∧
    (∀ d ∈ quarrelDeeds, d.IsFirm) ∧
    (∀ t, Ordered t quarrelDeeds (openQuarrel.bus.table t)) ∧
    (∃ served unserved, openQuarrel.bus.table .lineStarted = served ++ unserved ∧
      exchange.Answers lineStarts served unserved (exchange.calls lineStarts openQuarrel)) ∧
    (exchange.calls lineStarts openQuarrel).map (·.handler) = ["keen", "mild", "greedy"] := by
  obtain ⟨hordered, hdelivers⟩ :=
    handlers_are_called_by_rank exchange_lawful openQuarrel_reached quarrelDeeds_firm
  obtain ⟨hanswers, -⟩ := hdelivers rfl lineStarts
  exact ⟨openQuarrel_reached, quarrelDeeds_firm, hordered, hanswers, rfl⟩

end VisualNovel.Forum
