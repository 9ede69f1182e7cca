import VisualNovel.Proofs.Rehearsal.Orders
/-!
# Hooks

A delivery calls the recorder and then the hooks of a topic, which leave marks (`Near`) and give
orders. What the marks and the orders keep that hooks of the topic may give, the delivery keeps
(`Bears`, `deliver_bears`).
-/
namespace VisualNovel

/-- A step of a hook that gives no other orders than those allowed. -/
def HookStep.Within (allowed : Deed → Prop) : HookStep τ → Prop
  | .consume => True
  | .order o => ∃ deed, o.deed? = some deed ∧ allowed deed

theorem HookStep.Within.mono {allowed allowed' : Deed → Prop} {step : HookStep τ}
    (h : step.Within allowed) (hall : ∀ deed, allowed deed → allowed' deed) :
    step.Within allowed' := by
  cases step with
  | consume => trivial
  | order o =>
    obtain ⟨deed, ho, hdeed⟩ := h
    exact ⟨deed, ho, hall deed hdeed⟩

/-- What a hook hears of, and what it does when it will act so many times more. -/
abbrev Role (τ : Type) := Topic × (Nat → List (HookStep τ))

namespace Stand
variable {τ : Type}

/-- The role of a hook stays the same, however often the hook has acted. -/
def role (h : Hook τ) : Role τ := (h.topic, h.steps)

/-- The hooks as they are before any has acted. -/
def roles (s : Stand τ) : List (Role τ) := s.hooks.map role

/-! ## Marks -/

/-- Surroundings in which the events `ns` of a dialogue were delivered and hooks have acted. -/
structure Near (ns : List Notice) (s o : Stand τ) : Prop where
  slots : o.slots = s.slots
  view : o.view = s.view
  table : ∀ t, o.bus.table t = s.bus.table t
  queue : o.bus.queue = s.bus.queue
  noticesEnd : o.noticesEnd = s.noticesEnd
  encores : o.encores = s.encores
  roles : o.roles = s.roles
  vigor : o.vigor ≤ s.vigor
  marks : ∃ ms, o.marks = s.marks ++ ms ∧ ms.filterMap news? = ns ∧
    ∀ m ∈ ms, (∃ n, m = .notice n) ∨ ∃ t, m = .hooked t

namespace Near
variable {ns ns' : List Notice} {s o o' : Stand τ}

theorem trans (h : Near ns s o) (h' : Near ns' o o') : Near (ns ++ ns') s o' where
  slots := h'.slots.trans h.slots
  view := h'.view.trans h.view
  table t := (h'.table t).trans (h.table t)
  queue := h'.queue.trans h.queue
  noticesEnd := h'.noticesEnd.trans h.noticesEnd
  encores := h'.encores.trans h.encores
  roles := h'.roles.trans h.roles
  vigor := Nat.le_trans h'.vigor h.vigor
  marks := by
    obtain ⟨ms, hm, hn, hall⟩ := h.marks
    obtain ⟨ms', hm', hn', hall'⟩ := h'.marks
    refine ⟨ms ++ ms', by rw [hm', hm, List.append_assoc], by rw [List.filterMap_append, hn, hn'],
      fun m hmem => ?_⟩
    rcases List.mem_append.1 hmem with hmem | hmem
    · exact hall m hmem
    · exact hall' m hmem

theorem ofBus {b : Bus Listener Detail} (hb : s.bus.Same b) : Near [] s { s with bus := b } :=
  ⟨rfl, rfl, hb.table, hb.queue, rfl, rfl, rfl, Nat.le_refl _, [], by simp⟩

theorem ofReport (e : Log.Entry) : Near [] s { s with log := s.log ++ [e] } :=
  ⟨rfl, rfl, fun _ => rfl, rfl, rfl, rfl, rfl, Nat.le_refl _, [], by simp⟩

theorem sound {n : Nat} (h : Near ns s o) (hs : Sound n s) : Sound n o where
  slots := h.slots.trans hs.slots
  view v hv := hs.view v (h.view ▸ hv)
  listed t e he := by
    have hl := hs.listed t e (h.table t ▸ he)
    refine ⟨hl.lasts, hl.ranked, fun i hi => ?_, hl.dialogue⟩
    obtain ⟨k, hk, ht⟩ := hl.hook i hi
    have hrole : (o.hooks.map role)[i]? = some (role k) := by
      rw [show o.hooks.map role = _ from h.roles, Stand.roles, List.getElem?_map, hk]
      rfl
    rw [List.getElem?_map, Option.map_eq_some_iff] at hrole
    obtain ⟨k', hk', hrole⟩ := hrole
    exact ⟨k', hk', (congrArg Prod.fst hrole).trans ht⟩
  leads t := by
    rw [h.table]
    exact hs.leads t

theorem sight (h : Near ns s o) : o.sight = { s.sight with
    news := s.news ++ ns ++ s.bus.queue.filter fun n => n.topic.isNovel } := by
  obtain ⟨ms, hm, hn, hall⟩ := h.marks
  have hscreen : screen o.marks = screen s.marks := by
    unfold screen
    rw [hm, List.foldl_append]
    generalize s.marks.foldl draw ("", []) = p
    clear hm hn
    induction ms with
    | nil => rfl
    | cons m ms ih =>
      rw [List.foldl_cons]
      have hdraw : draw p m = p := by
        rcases hall m (List.mem_cons_self ..) with ⟨n, rfl⟩ | ⟨t, rfl⟩ <;> rfl
      rw [hdraw]
      exact ih fun m hmem => hall m (List.mem_cons_of_mem _ hmem)
  have hbows : ms.countP isBow = 0 := by
    rw [List.countP_eq_zero]
    intro m hmem
    rcases hall m hmem with ⟨n, rfl⟩ | ⟨t, rfl⟩ <;> exact nofun
  unfold Stand.sight published news bows ears
  rw [h.view, h.table, h.queue, hscreen, hm, List.filterMap_append, hn, List.countP_append, hbows]
  rfl

theorem sight_nil (h : Near [] s o) : o.sight = s.sight := by
  rw [h.sight, List.append_nil]
  rfl

end Near

/-- The events of the dialogue among one event. -/
def newsOf (n : Notice) : List Notice := if n.topic.isNovel then [n] else []

/-- While no event waits, an event of the dialogue is all that can be seen of its delivery. -/
theorem Near.sight_of_novel {s o : Stand τ} {n : Notice} (h : Near (newsOf n) s o)
    (hn : n.topic.isNovel = true) (hqueue : s.bus.queue = []) :
    o.sight = { s.sight with news := s.sight.news ++ [n] } := by
  have hnews : s.sight.news = s.news := by
    show s.news ++ s.bus.queue.filter _ = s.news
    rw [hqueue]
    exact List.append_nil _
  rw [h.sight, hnews, hqueue, newsOf, if_pos hn]
  simp

/-- Acting takes some of a hook's vigor. -/
theorem vigor_set {hooks : List (Hook τ)} {i left : Nat} {k : Hook τ}
    (hk : hooks[i]? = some k) (hl : k.left = left + 1) (k' : Hook τ) (hl' : k'.left = left) :
    (hooks.set i k').foldr (fun h rest => h.left + rest) 0 <
      hooks.foldr (fun h rest => h.left + rest) 0 := by
  induction hooks generalizing i with
  | nil => cases hk
  | cons k₀ hooks ih =>
    cases i with
    | zero =>
      cases hk
      simp [hl, hl']
    | succ i =>
      have hlt := ih (i := i) (by simpa using hk)
      simp only [List.set_cons_succ, List.foldr_cons]
      omega

theorem acts_near {s : Stand τ} {i left : Nat} {t : Topic} {priority : Json}
    {steps : Nat → List (HookStep τ)} (hk : s.hooks[i]? = some ⟨t, priority, left + 1, steps⟩) :
    let o := { s with hooks := s.hooks.set i ⟨t, priority, left, steps⟩ }.leave (.hooked t)
    Near [] s o ∧ o.vigor < s.vigor := by
  intro o
  have hlt : o.vigor < s.vigor := vigor_set hk rfl _ rfl
  refine ⟨⟨rfl, rfl, fun _ => rfl, rfl, rfl, rfl, ?_, Nat.le_of_lt hlt, [.hooked t], rfl, rfl,
    fun m hm => Or.inr ⟨t, List.mem_singleton.1 hm⟩⟩, hlt⟩
  show (s.hooks.set i ⟨t, priority, left, steps⟩).map role = s.hooks.map role
  obtain ⟨hi, hget⟩ := List.getElem?_eq_some_iff.1 hk
  have hi' : i < (s.hooks.map role).length := by
    rw [List.length_map]
    exact hi
  have hsame : role (⟨t, priority, left, steps⟩ : Hook τ) = (s.hooks.map role)[i] := by
    rw [List.getElem_map, hget]
    rfl
  rw [List.map_set, hsame, List.set_getElem_self]

theorem recorder_near (n : Notice) (s : Stand τ) : Near (newsOf n) s (s.leave (.notice n)) := by
  refine ⟨rfl, rfl, fun _ => rfl, rfl, rfl, rfl, rfl, Nat.le_refl _, [.notice n], rfl, ?_,
    fun m hm => Or.inl ⟨n, List.mem_singleton.1 hm⟩⟩
  unfold newsOf
  cases h : n.topic.isNovel <;> simp [news?, h]

end Stand

/-! ## Deliveries -/

namespace Rehearsal
open Stand (Near Sound)
variable {τ : Type} [Clock τ] {interval : τ} {sound : Json} {allowed : Deed → Prop} {t : Topic}
  {rs : List (Role τ)} {J J' : Rehearsal τ → Prop} {d : Rehearsal τ}

/-- While an event of a topic is delivered, `J` is kept between the calls of hooks and `J'` while a
hook is giving orders. -/
structure Bears (interval : τ) (sound : Json) (allowed : Deed → Prop) (t : Topic)
    (rs : List (Role τ)) (J J' : Rehearsal τ → Prop) : Prop where
  roles : ∀ d, J d → d.outside.roles = rs
  near : ∀ d o, J d → Near [] d.outside o → J { d with outside := o }
  acts : ∀ d o, J d → Near [] d.outside o → o.vigor < d.outside.vigor → J' { d with outside := o }
  deed : ∀ o deed d, o.deed? = some deed → allowed deed → J' d →
    J' (carryOut interval sound queue o d).1
  rests : ∀ d, J' d → J d

/-- What orders keep, the steps of a hook keep. -/
theorem perform_bears (hb : Bears interval sound allowed t rs J J') {steps : List (HookStep τ)}
    (hsteps : ∀ step ∈ steps, step.Within allowed) (consumed : Bool) (h : J' d) :
    J' (perform interval sound consumed steps d).1 := by
  induction steps generalizing d consumed with
  | nil => exact h
  | cons step steps ih =>
    have hrest (step' : HookStep τ) (hstep' : step' ∈ steps) : step'.Within allowed :=
      hsteps step' (List.mem_cons_of_mem _ hstep')
    cases step with
    | consume => exact ih hrest true h
    | order o =>
      obtain ⟨deed, hdeed, hallowed⟩ := hsteps _ (List.mem_cons_self ..)
      have hdone := hb.deed o deed d hdeed hallowed h
      unfold perform
      match hr : carryOut interval sound queue o d with
      | (d', .failed e) =>
        rw [hr] at hdone
        exact hdone
      | (d', .none) | (d', .truth b) =>
        rw [hr] at hdone
        exact ih hrest consumed hdone

/-- What a hook's marks and orders keep, its call keeps. -/
theorem callHook_bears (hb : Bears interval sound allowed t rs J J')
    (hwithin : ∀ r ∈ rs, r.1 = t → ∀ left, ∀ step ∈ r.2 left, step.Within allowed) {i : Nat}
    (hi : ∃ steps, rs[i]? = some (t, steps)) (h : J d) :
    J (callHook interval sound i d).1 := by
  unfold callHook
  match hk : d.outside.hooks[i]? with
  | none => exact h
  | some ⟨topic, priority, 0, steps⟩ => exact h
  | some ⟨topic, priority, left + 1, steps⟩ =>
    obtain ⟨steps', hrole⟩ := hi
    have hget : d.outside.roles[i]? = some (topic, steps) := by
      rw [Stand.roles, List.getElem?_map, hk]
      rfl
    rw [hb.roles d h, hrole] at hget
    cases hget
    obtain ⟨hnear, hvigor⟩ := Stand.acts_near hk
    refine hb.rests _ (perform_bears hb (fun step hstep => ?_) false (hb.acts d _ h hnear hvigor))
    exact hwithin _ (List.mem_of_getElem? hrole) rfl left step hstep

/-- An event is delivered to the recorder first; what holds then and what the calls of hooks keep
holds afterwards. -/
theorem deliver_bears (hb : Bears interval sound allowed t rs J J')
    (hwithin : ∀ r ∈ rs, r.1 = t → ∀ left, ∀ step ∈ r.2 left, step.Within allowed) {slots : Nat}
    {n : Notice} (ht : n.topic = t) (hs : Sound slots d.outside)
    (hhears : (∃ e ∈ d.outside.bus.table n.topic, e.handler = .dialogue) →
      ∀ c, J c → J (carryOut interval sound queue .advance c).1)
    (h : J (d.withOutside (Stand.leave (.notice n)))) :
    J ((exchange interval sound).deliver n d).1 := by
  obtain ⟨rest, htable, hrest⟩ := hs.leads n.topic
  have hroles : d.outside.roles = rs := hb.roles (d.withOutside (Stand.leave (.notice n))) h
  have hlisted (e : Entry Listener) (he : e ∈ Stand.recorderEntry :: rest) :
      Stand.Listed d.outside.hooks n.topic e := hs.listed n.topic e (htable ▸ he)
  have hbus (c : Rehearsal τ) (b : Bus Listener Detail) (hc : J c) (hsame : c.outside.bus.Same b) :
      J (c.withOutside fun s => { s with bus := b }) := hb.near c _ hc (.ofBus hsame)
  have hcall (e : Entry Listener) (he : e ∈ rest) (c : Rehearsal τ) (hc : J c) :
      J ((exchange interval sound).call e.handler n c).1 := by
    have hl := hlisted e (List.mem_cons_of_mem _ he)
    match hh : e.handler with
    | .recorder => exact absurd hh (hrest e he)
    | .dialogue =>
      have hdone := hhears ⟨e, htable ▸ List.mem_cons_of_mem _ he, hh⟩ c hc
      show J (hear interval sound n c).1
      unfold hear
      split
      · match hr : carryOut interval sound queue .advance c with
        | (c', .failed e) | (c', .none) | (c', .truth b) =>
          rw [hr] at hdone
          exact hdone
      · exact hc
    | .hook i =>
      obtain ⟨k, hk, htopic⟩ := hl.hook i hh
      refine callHook_bears hb hwithin ⟨k.steps, ?_⟩ hc
      rw [← hroles, Stand.roles, List.getElem?_map, hk, ← ht, ← htopic]
      rfl
  have hfirst (c : Rehearsal τ) (hc : J (c.withOutside (Stand.leave (.notice n)))) :
      J ((exchange interval sound).call .recorder n c).1 ∧
        ((exchange interval sound).call .recorder n c).2 = {} := ⟨hc, rfl⟩
  obtain ⟨hserved, hspent⟩ := Exchange.serve_first (x := exchange interval sound) (e := n)
    (fun c => J (c.withOutside (Stand.leave (.notice n))))
    (fun c b hc hsame => hbus _ b hc hsame) hbus (fun c hc => hb.near c _ hc (.ofReport _))
    Stand.recorderEntry rest (fun e he => (hlisted e he).lasts) hfirst hcall
    ((exchange interval sound).modify (·.begin (Stand.recorderEntry :: rest)) d)
    (hbus _ (d.outside.bus.begin (Stand.recorderEntry :: rest)) h ⟨fun _ => rfl, rfl⟩)
  have htable' : ((exchange interval sound).bus d).table n.topic = Stand.recorderEntry :: rest :=
    htable
  exact Exchange.deliver_of_serve (x := exchange interval sound) (e := n) hbus d
    (by rw [htable']; exact hserved) (by rw [htable']; exact hspent)

/-- A publication whose delivery brings about no event keeps what the delivery keeps. -/
theorem publish_bears (hb : Bears interval sound allowed t rs J J')
    (hwithin : ∀ r ∈ rs, r.1 = t → ∀ left, ∀ step ∈ r.2 left, step.Within allowed) {slots : Nat}
    {n : Notice} (ht : n.topic = t) (hs : Sound slots d.outside)
    (hhears : (∃ e ∈ d.outside.bus.table n.topic, e.handler = .dialogue) →
      ∀ c, J c → J (carryOut interval sound queue .advance c).1)
    (hqueue : ∀ c, J c → c.outside.bus.queue = []) (hidle : d.outside.bus.delivering = false)
    (h : J (d.withOutside (Stand.leave (.notice n)))) :
    J (publish interval sound n d).1 ∧
      (publish interval sound n d).1.outside.bus.delivering = false := by
  have hdone := deliver_bears hb hwithin ht hs hhears h
  have hdel := Exchange.delivering_deliver (x := exchange interval sound) (e := n)
    (fun _ _ => rfl) d
  have heq : (publish interval sound n d).1 =
      ((exchange interval sound).deliver n d).1.withOutside
        fun s => { s with bus := s.bus.rest } := by
    unfold publish Exchange.publishUpTo
    rw [if_neg (by rw [show ((exchange interval sound).bus d).delivering = false from hidle]; simp)]
    simp only [Exchange.exhaust_nil (x := exchange interval sound) (hqueue _ hdone)]
    rfl
  rw [heq]
  exact ⟨hb.near _ _ hdone (.ofBus ⟨fun _ => rfl, rfl⟩), hdel⟩

omit [Clock τ] in
/-- The dialogue hears of no event of its own. -/
theorem deaf_of_novel {slots : Nat} {s : Stand τ} (hs : Sound slots s) {n : Notice}
    (hn : n.topic.isNovel = true) : ¬∃ e ∈ s.bus.table n.topic, e.handler = .dialogue := by
  rintro ⟨e, he, hh⟩
  rw [(hs.listed n.topic e he).dialogue hh] at hn
  cases hn

end Rehearsal
end VisualNovel
