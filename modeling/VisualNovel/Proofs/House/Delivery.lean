import VisualNovel.House.Screen
import VisualNovel.Proofs.Bus.Delivery
/-!
# Deliveries in a house

The recorder hears every event of a house first, and nobody else hears any but the actions of the
player. Those are heard by dialogues, then by the game, then by screens (`Tuned`). So to publish an
event that is no action only writes it down (`publish_observed`), and while another event is
delivered it only waits. An action is heard by each listener in turn, and then what came to wait in
the meantime is written down (`publish_action`).

What was told so far is what was written down and what waits.
-/
namespace VisualNovel

/-- The notice that was written down. -/
def HouseMark.notice? : HouseMark τ → Option Notice
  | notice n => some n
  | _ => none

namespace House
variable {τ : Type}

/-! ## Who listens -/

def recorderEntry : Entry Subscriber := ⟨.int recorderPriority, .recorder, false, false⟩

def dialogueEntry (n : Nat) : Entry Subscriber :=
  ⟨.int dialoguePriority, .dialogue n, false, false⟩

def gameEntry : Entry Subscriber := ⟨.int 0, .game, false, false⟩

def screenEntry (n : Nat) : Entry Subscriber := ⟨.int 0, .screen n, false, false⟩

/-- The recorder listens to everything, and to actions also the dialogues of the screens `ds`, the
game and the screens `ss`, in this order. -/
structure Tuned (ds ss : List Nat) (b : Bus Subscriber Detail) : Prop where
  others : ∀ t, t ≠ .actionPressed → b.table t = [recorderEntry]
  actions : b.table .actionPressed =
    recorderEntry :: (ds.map dialogueEntry ++ gameEntry :: ss.map screenEntry)

section
variable {ds ss : List Nat} {b b' : Bus Subscriber Detail}

theorem Tuned.same (h : Tuned ds ss b) (hb : ∀ t, b'.table t = b.table t) : Tuned ds ss b' :=
  ⟨fun t ht => (hb t).trans (h.others t ht), (hb _).trans h.actions⟩

theorem Tuned.setTable (h : Tuned ds ss b) {ds' ss' : List Nat} {es : List (Entry Subscriber)}
    (hes : es = recorderEntry :: (ds'.map dialogueEntry ++ gameEntry :: ss'.map screenEntry)) :
    Tuned ds' ss' (b.setTable .actionPressed es) := by
  refine ⟨fun t ht => ?_, ?_⟩
  · rw [Bus.table_setTable, if_neg ht]
    exact h.others t ht
  · rw [Bus.table_setTable, if_pos rfl]
    exact hes

/-- Every subscription lasts. -/
theorem Tuned.lasts (h : Tuned ds ss b) (t : Topic) : ∀ e ∈ b.table t, e.lasts := by
  intro e he
  by_cases ht : t = .actionPressed
  · subst ht
    rw [h.actions] at he
    simp only [List.mem_cons, List.mem_append, List.mem_map] at he
    obtain rfl | ⟨m, -, rfl⟩ | rfl | ⟨m, -, rfl⟩ := he <;> exact ⟨rfl, rfl⟩
  · rw [h.others t ht, List.mem_singleton] at he
    subst he
    exact ⟨rfl, rfl⟩

/-- A dialogue that begins to listen comes after those that listen already. -/
theorem Tuned.addDialogue (h : Tuned ds ss b) (n : Nat) :
    ∃ es, b.subscribe .actionPressed (dialogueEntry n) = .ok (b.setTable .actionPressed es) ∧
      Tuned (ds ++ [n]) ss (b.setTable .actionPressed es) := by
  have hplace := insertEntry_between (e := dialogueEntry n) (m := dialoguePriority) rfl
    (l := recorderEntry :: ds.map dialogueEntry) (r := gameEntry :: ss.map screenEntry)
    (fun a ha => by
      rcases List.mem_cons.1 ha with rfl | ha
      · exact ⟨recorderPriority, rfl, by decide⟩
      · obtain ⟨m, -, rfl⟩ := List.mem_map.1 ha
        exact ⟨dialoguePriority, rfl, Int.le_refl _⟩)
    fun a ha => by
      cases ha
      exact ⟨0, rfl, by decide⟩
  refine ⟨_, ?_, h.setTable (rfl : _ = recorderEntry ::
    ((ds ++ [n]).map dialogueEntry ++ gameEntry :: ss.map screenEntry))⟩
  unfold Bus.subscribe
  rw [h.actions]
  show Except.map _ (insertEntry _ (recorderEntry :: ds.map dialogueEntry ++ _)) = _
  rw [hplace]
  simp [Except.map]

/-- A screen that begins to listen comes last. -/
theorem Tuned.addScreen (h : Tuned ds ss b) (n : Nat) :
    ∃ es, b.subscribe .actionPressed (screenEntry n) = .ok (b.setTable .actionPressed es) ∧
      Tuned ds (ss ++ [n]) (b.setTable .actionPressed es) := by
  have hplace := insertEntry_between (e := screenEntry n) (m := 0) rfl
    (l := recorderEntry :: (ds.map dialogueEntry ++ gameEntry :: ss.map screenEntry)) (r := [])
    (fun a ha => by
      simp only [List.mem_cons, List.mem_append, List.mem_map] at ha
      obtain rfl | ⟨m, -, rfl⟩ | rfl | ⟨m, -, rfl⟩ := ha
      · exact ⟨recorderPriority, rfl, by decide⟩
      · exact ⟨dialoguePriority, rfl, by decide⟩
      · exact ⟨0, rfl, Int.le_refl _⟩
      · exact ⟨0, rfl, Int.le_refl _⟩)
    fun a ha => nomatch ha
  rw [List.append_nil] at hplace
  refine ⟨_, ?_, h.setTable (rfl : _ = recorderEntry ::
    (ds.map dialogueEntry ++ gameEntry :: (ss ++ [n]).map screenEntry))⟩
  unfold Bus.subscribe
  rw [h.actions, hplace]
  simp [Except.map]

/-- The dialogue of a screen begins to listen to the player. -/
theorem dialogue_subscribes {h : House τ} (ht : Tuned ds ss h.bus) (n : Nat) :
    ∃ es, h.subscribe .actionPressed dialoguePriority (.dialogue n) =
        { h with bus := h.bus.setTable .actionPressed es } ∧
      Tuned (ds ++ [n]) ss (h.bus.setTable .actionPressed es) := by
  obtain ⟨es, hsub, htuned⟩ := ht.addDialogue n
  refine ⟨es, ?_, htuned⟩
  unfold subscribe
  rw [show (⟨.int dialoguePriority, .dialogue n, false, false⟩ : Entry Subscriber) =
    dialogueEntry n from rfl, hsub]
  rfl

/-- A screen begins to listen to the player. -/
theorem screen_subscribes {h : House τ} (ht : Tuned ds ss h.bus) (n : Nat) :
    ∃ es, h.subscribe .actionPressed 0 (.screen n) =
        { h with bus := h.bus.setTable .actionPressed es } ∧
      Tuned ds (ss ++ [n]) (h.bus.setTable .actionPressed es) := by
  obtain ⟨es, hsub, htuned⟩ := ht.addScreen n
  refine ⟨es, ?_, htuned⟩
  unfold subscribe
  rw [show (⟨.int 0, .screen n, false, false⟩ : Entry Subscriber) = screenEntry n from rfl, hsub]
  rfl

/-- A dialogue that ceases to listen is gone. -/
theorem Tuned.dropDialogue (h : Tuned ds ss b) (n : Nat) :
    Tuned (ds.filter (· ≠ n)) ss (b.unsubscribe (fun _ => true) .actionPressed (.dialogue n)) := by
  refine h.setTable ?_
  have hds : (ds.map dialogueEntry).filter (fun e => !decide (e.handler = .dialogue n)) =
      (ds.filter (· ≠ n)).map dialogueEntry := by
    rw [List.filter_map]
    congr 1
    refine List.filter_congr fun m _ => ?_
    simp [dialogueEntry]
  have hss : (ss.map screenEntry).filter (fun e => !decide (e.handler = .dialogue n)) =
      ss.map screenEntry := by
    refine List.filter_eq_self.2 fun e he => ?_
    obtain ⟨m, -, rfl⟩ := List.mem_map.1 he
    rfl
  rw [h.actions]
  simp [recorderEntry, gameEntry, hds, hss]

/-- A screen that ceases to listen is gone. -/
theorem Tuned.dropScreen (h : Tuned ds ss b) (n : Nat) :
    Tuned ds (ss.filter (· ≠ n)) (b.unsubscribe (fun _ => true) .actionPressed (.screen n)) := by
  refine h.setTable ?_
  have hds : (ds.map dialogueEntry).filter (fun e => !decide (e.handler = .screen n)) =
      ds.map dialogueEntry := by
    refine List.filter_eq_self.2 fun e he => ?_
    obtain ⟨m, -, rfl⟩ := List.mem_map.1 he
    rfl
  have hss : (ss.map screenEntry).filter (fun e => !decide (e.handler = .screen n)) =
      (ss.filter (· ≠ n)).map screenEntry := by
    rw [List.filter_map]
    congr 1
    refine List.filter_congr fun m _ => ?_
    simp [screenEntry]
  rw [h.actions]
  simp [recorderEntry, gameEntry, hds, hss]

end

/-! ## What is told -/

/-- What was told: what was written down, and what waits. -/
def told (h : House τ) : List Notice := h.marks.filterMap HouseMark.notice? ++ h.bus.queue

/-- A house in which `ns` was told, while the listeners, the services and all scenes stay as they
are. -/
structure Spreads (ns : List Notice) (h h' : House τ) : Prop where
  screens : h'.screens = h.screens
  scenes : h'.scenes = h.scenes
  services : h'.services = h.services
  running : h'.running = h.running
  table : ∀ t, h'.bus.table t = h.bus.table t
  delivering : h'.bus.delivering = h.bus.delivering
  told : h'.told = h.told ++ ns
  idle : h.bus.delivering = false → h.bus.queue = [] → h'.bus.queue = []
  waits : ∀ q ∈ h'.bus.queue, q ∈ h.bus.queue ∨ q ∈ ns

/-- What neither the bus nor the scenes have to do with makes no difference. -/
theorem Spreads.of_eq {h h' : House τ} (hscreens : h'.screens = h.screens)
    (hscenes : h'.scenes = h.scenes) (hservices : h'.services = h.services)
    (hrunning : h'.running = h.running) (hbus : h'.bus = h.bus)
    (hmarks : h'.marks.filterMap HouseMark.notice? = h.marks.filterMap HouseMark.notice?) :
    Spreads [] h h' where
  screens := hscreens
  scenes := hscenes
  services := hservices
  running := hrunning
  table _ := by rw [hbus]
  delivering := by rw [hbus]
  told := by
    unfold House.told
    rw [hbus, hmarks, List.append_nil]
  idle _ hq := by rw [hbus]; exact hq
  waits q hq := Or.inl (by rw [← hbus]; exact hq)

theorem Spreads.refl (h : House τ) : Spreads [] h h :=
  .of_eq rfl rfl rfl rfl rfl rfl

theorem Spreads.trans {ns ns' : List Notice} {h h' h'' : House τ} (h₁ : Spreads ns h h')
    (h₂ : Spreads ns' h' h'') : Spreads (ns ++ ns') h h'' where
  screens := h₂.screens.trans h₁.screens
  scenes := h₂.scenes.trans h₁.scenes
  services := h₂.services.trans h₁.services
  running := h₂.running.trans h₁.running
  table t := (h₂.table t).trans (h₁.table t)
  delivering := h₂.delivering.trans h₁.delivering
  told := by rw [h₂.told, h₁.told, List.append_assoc]
  idle hd hq := h₂.idle (h₁.delivering.trans hd) (h₁.idle hd hq)
  waits q hq := by
    rcases h₂.waits q hq with hq | hq
    · exact (h₁.waits q hq).imp_right (List.mem_append_left _)
    · exact Or.inr (List.mem_append_right _ hq)

/-- A house in which dialogues `ds` and screens `ss` listen to the player, while an event is being
delivered or not; no action waits. -/
structure Ready (busy : Bool) (ds ss : List Nat) (h : House τ) : Prop where
  tuned : Tuned ds ss h.bus
  delivering : h.bus.delivering = busy
  idle : busy = false → h.bus.queue = []
  waits : ∀ q ∈ h.bus.queue, q.topic ≠ .actionPressed

theorem Ready.spreads {busy : Bool} {ds ss : List Nat} {ns : List Notice} {h h' : House τ}
    (hr : Ready busy ds ss h) (hs : Spreads ns h h') (hns : ∀ n ∈ ns, n.topic ≠ .actionPressed) :
    Ready busy ds ss h' where
  tuned := hr.tuned.same hs.table
  delivering := hs.delivering.trans hr.delivering
  idle hb := hs.idle (hr.delivering.trans hb) (hr.idle hb)
  waits q hq := (hs.waits q hq).elim (hr.waits q) (hns q)

/-- The scenes are not the bus's business. -/
theorem Ready.withScenes {busy : Bool} {ds ss : List Nat} {h : House τ} (hr : Ready busy ds ss h)
    (scenes : SceneStack SceneId) : Ready busy ds ss { h with scenes } :=
  ⟨hr.tuned, hr.delivering, hr.idle, hr.waits⟩

/-- To publish an event that is no action does nothing but tell it. -/
def Tells (busy : Bool) (pub : Publisher τ) : Prop :=
  ∀ (h : House τ) (ds ss : List Nat) (n : Notice), Ready busy ds ss h →
    n.topic ≠ .actionPressed → Spreads [n] h (pub n h).1

/-- While an event is delivered, others wait. -/
theorem queue_tells : Tells true (queue : Publisher τ) := fun h ds ss n hr _ =>
  { screens := rfl
    scenes := rfl
    services := rfl
    running := rfl
    table := fun _ => rfl
    delivering := rfl
    told := (List.append_assoc ..).symm
    idle := fun hidle => by
      rw [hr.delivering] at hidle
      cases hidle
    waits := fun _ hq => List.mem_append.1 hq }

/-! ## Deliveries -/

section
variable [Clock τ] {ds ss : List Nat} {h : House τ} {n : Notice}

/-- A listener is served. -/
theorem attend_eq (n : Notice) (h : House τ) (e : Entry Subscriber) :
    exchange.attend n h e =
      let h := { h with bus := { h.bus with serving := some e.handler } }
      if (h.listen e.handler n).2.isSome then (h.listen e.handler n).1.report n.topic.failure
      else (h.listen e.handler n).1 := rfl

theorem attend_recorder (n : Notice) (h : House τ) :
    exchange.attend n h recorderEntry =
      { h with
        bus := { h.bus with serving := some .recorder }
        marks := h.marks ++ [.notice n] } := rfl

theorem call_free (k : Subscriber) (n : Notice) (h : House τ) :
    (exchange.call k n h).2.consumed = false := rfl

/-- An event that is no action is written down. -/
theorem deliver_observed (ht : Tuned ds ss h.bus) (hn : n.topic ≠ .actionPressed) :
    ∃ b, exchange.deliver n h = ({ h with bus := b, marks := h.marks ++ [.notice n] }, false) ∧
      h.bus.Same b ∧ b.delivering = false := by
  rw [Exchange.deliver_eq call_free h (ht.lasts n.topic)]
  have htable : (exchange.bus h).table n.topic = [recorderEntry] := ht.others _ hn
  rw [htable, List.foldl_cons, List.foldl_nil, attend_recorder]
  exact ⟨_, rfl, ⟨(Bus.setTable_same _ n.topic).table, rfl⟩, rfl⟩

/-- The events that wait are written down, if none is an action. -/
theorem drain_observed (ht : Tuned ds ss h.bus) (hd : h.bus.delivering = false)
    (hn : ∀ q ∈ h.bus.queue, q.topic ≠ .actionPressed) :
    ∃ b, exchange.drain h.bus.queue.length h =
        { h with bus := b, marks := h.marks ++ h.bus.queue.map .notice } ∧
      (∀ t, b.table t = h.bus.table t) ∧ b.queue = [] ∧ b.delivering = false := by
  generalize hq : h.bus.queue = qs at hn ⊢
  induction qs generalizing h with
  | nil => exact ⟨h.bus, by simp [Exchange.drain], fun _ => rfl, hq, hd⟩
  | cons q qs ih =>
    obtain ⟨b, hdeliver, hsame, hidle⟩ := deliver_observed
      (h := { h with bus := { h.bus with queue := qs } })
      (show Tuned ds ss { h.bus with queue := qs } from ht.same fun _ => rfl) (hn q (List.mem_cons_self ..))
    obtain ⟨b', hdrain, htables, hnil, hidle'⟩ := ih (h := { h with
        bus := b
        marks := h.marks ++ [.notice q] })
      (ht.same hsame.table) hidle hsame.queue fun a ha => hn a (List.mem_cons_of_mem _ ha)
    refine ⟨b', ?_, fun t => (htables t).trans (hsame.table t), hnil, hidle'⟩
    have hbus : (exchange.bus h).queue = q :: qs := hq
    show exchange.drain (qs.length + 1) h = _
    unfold Exchange.drain
    simp only [hbus]
    rw [show exchange.modify (fun b => { b with queue := qs }) h =
      { h with bus := { h.bus with queue := qs } } from rfl, hdeliver, hdrain]
    simp

theorem exhaust_observed (ht : Tuned ds ss h.bus) (hd : h.bus.delivering = false)
    (hn : ∀ q ∈ h.bus.queue, q.topic ≠ .actionPressed) {rounds : Nat} (hr : 0 < rounds) :
    ∃ b, exchange.exhaust rounds h =
        { h with bus := b, marks := h.marks ++ h.bus.queue.map .notice } ∧
      (∀ t, b.table t = h.bus.table t) ∧ b.queue = [] ∧ b.delivering = false := by
  obtain ⟨rounds, rfl⟩ := Nat.exists_eq_succ_of_ne_zero (Nat.pos_iff_ne_zero.1 hr)
  unfold Exchange.exhaust
  cases hq : (exchange.bus h).queue with
  | nil =>
    have hnil : h.bus.queue = [] := hq
    exact ⟨h.bus, by simp [hnil], fun _ => rfl, hq, hd⟩
  | cons q qs =>
    obtain ⟨b, hdrain, htables, hnil, hidle⟩ := drain_observed ht hd hn
    rw [show h.bus.queue = q :: qs from hq] at hdrain ⊢
    refine ⟨b, ?_, htables, hnil, hidle⟩
    simp only [hdrain]
    exact Exchange.exhaust_nil hnil rounds

theorem cascade_pos : 0 < Exchange.cascadeLimit := by decide

/-- An event from outside that is no action is written down. -/
theorem publish_observed (hr : Ready false ds ss h) (hn : n.topic ≠ .actionPressed) :
    ∃ b, (publish n h).1 = { h with bus := b, marks := h.marks ++ [.notice n] } ∧
      (∀ t, b.table t = h.bus.table t) ∧ b.queue = [] ∧ b.delivering = false := by
  obtain ⟨b, hdeliver, hsame, hidle⟩ := deliver_observed hr.tuned hn
  have hnil : b.queue = [] := hsame.queue.trans (hr.idle rfl)
  have hbus : (exchange.bus h).delivering = false := hr.delivering
  refine ⟨b.rest, ?_, hsame.table, hnil, hidle⟩
  unfold publish Exchange.publish Exchange.publishUpTo
  simp only [hbus, Bool.false_eq_true, if_false, hdeliver]
  rw [Exchange.exhaust_nil hnil]
  rfl

/-- From outside, an event that is no action is told at once. -/
theorem publish_tells : Tells false (publish : Publisher τ) := by
  intro h ds ss n hr hn
  obtain ⟨b, hpub, htables, hnil, hidle⟩ := publish_observed hr hn
  rw [hpub]
  refine ⟨rfl, rfl, rfl, rfl, htables, hidle.trans hr.delivering.symm, ?_, fun _ _ => hnil,
    fun q hq => ?_⟩
  · unfold told
    rw [hnil, hr.idle rfl]
    simp [HouseMark.notice?]
  · rw [show ({ h with bus := b, marks := h.marks ++ [.notice n] } : House τ).bus.queue = [] from
      hnil] at hq
    cases hq

/-- The house in which the recorder has heard of an action and the others have not. -/
def announced (a : Action) (h : House τ) : House τ :=
  { h with
    bus := { h.bus.begin (h.bus.table .actionPressed) with serving := some .recorder }
    marks := h.marks ++ [.notice (Notice.actionPressed a)] }

/-- An action from outside is heard by each listener in turn; then what came to wait is written
down, if it is no action. -/
theorem publish_action (a : Action) (hr : Ready false ds ss h) {h' : House τ}
    (hh : (ds.map dialogueEntry ++ gameEntry :: ss.map screenEntry).foldl
      (exchange.attend (Notice.actionPressed a)) (announced a h) = h')
    {busy : Bool} {ds' ss' : List Nat} (hr' : Ready busy ds' ss' h') :
    ∃ b ms, (publish (Notice.actionPressed a) h).1 = { h' with bus := b, marks := ms } ∧
      Ready false ds' ss' { h' with bus := b, marks := ms } ∧
      told { h' with bus := b, marks := ms } = h'.told := by
  have hdeliver := Exchange.deliver_eq (x := exchange) (e := Notice.actionPressed a) call_free h
    (hr.tuned.lasts _)
  have htable : (exchange.bus h).table (Notice.actionPressed a).topic = recorderEntry ::
      (ds.map dialogueEntry ++ gameEntry :: ss.map screenEntry) := hr.tuned.actions
  rw [htable, List.foldl_cons, attend_recorder] at hdeliver
  have hbegun : ({ exchange.modify (·.begin (recorderEntry ::
        (ds.map dialogueEntry ++ gameEntry :: ss.map screenEntry))) h with
      bus := { (exchange.modify (·.begin (recorderEntry ::
        (ds.map dialogueEntry ++ gameEntry :: ss.map screenEntry))) h).bus with
          serving := some .recorder }
      marks := (exchange.modify (·.begin (recorderEntry ::
        (ds.map dialogueEntry ++ gameEntry :: ss.map screenEntry))) h).marks ++
          [.notice (Notice.actionPressed a)] } : House τ) = announced a h := by
    unfold announced
    rw [hr.tuned.actions]
    rfl
  rw [hbegun, hh] at hdeliver
  have hsame := (Bus.setTable_same h'.bus .actionPressed).table
  obtain ⟨b, hexhaust, htables, hnil, hidle⟩ := exhaust_observed
    (h := exchange.modify (fun b => { b.setTable (Notice.actionPressed a).topic
      (b.table (Notice.actionPressed a).topic) with delivering := false }) h')
    (hr'.tuned.same hsame) rfl hr'.waits cascade_pos
  have hbus : (exchange.bus h).delivering = false := hr.delivering
  have hrest : b.rest.queue = [] := hnil
  refine ⟨b.rest, h'.marks ++ h'.bus.queue.map .notice, ?_,
    ⟨hr'.tuned.same fun t => (htables t).trans (hsame t), hidle, fun _ => hnil, fun q hq => ?_⟩, ?_⟩
  · unfold publish Exchange.publish Exchange.publishUpTo
    simp only [hbus, Bool.false_eq_true, if_false, hdeliver, hexhaust]
    rfl
  · rw [show ({ h' with bus := b.rest, marks := _ } : House τ).bus.queue = [] from hnil] at hq
    cases hq
  · unfold told
    simp only [hrest, List.append_nil, List.filterMap_append, List.filterMap_map]
    congr 1
    exact List.filterMap_some

end
end House
end VisualNovel
