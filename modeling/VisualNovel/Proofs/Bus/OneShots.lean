import VisualNovel.Proofs.Bus.Order
/-!
# One-shot subscriptions

A one-shot subscription is taken away at the end of the delivery that called its handler, by
comparing entries: those go that equal an entry that was spent. So another subscription that equals
it goes along, also one that was made during the delivery and one that the delivery did not come to.
All others stay until their handler is unsubscribed or their topic is cleared
(`one_shots_go_with_their_equals`).
-/
namespace VisualNovel

/-- Whether a deed removes the subscriptions of an entry's handler to a topic. -/
def BusDeed.Drops (t : Topic) (a : Entry κ) : BusDeed κ π → Prop
  | .unsubscribe t' k => t' = t ∧ a.handler = k
  | .clear none => True
  | .clear (some t') => t' = t
  | _ => False

theorem mem_insertEntry {entry a : Entry κ} {table table' : List (Entry κ)}
    (h : insertEntry entry table = .ok table') (ha : a ∈ table) : a ∈ table' := by
  induction table generalizing table' with
  | nil => simp at ha
  | cons b table ih =>
    unfold insertEntry at h
    cases houtranks : outranks entry.priority b.priority with
    | error m => simp [houtranks, bind, Except.bind] at h
    | ok higher =>
      cases higher with
      | true =>
        simp [houtranks, bind, Except.bind] at h
        rw [← h]
        exact List.mem_cons_of_mem _ ha
      | false =>
        cases hrest : insertEntry entry table with
        | error m => simp [houtranks, hrest, bind, Except.bind] at h
        | ok rest =>
          simp [houtranks, hrest, bind, Except.bind, pure, Except.pure] at h
          rw [← h]
          rcases List.mem_cons.1 ha with rfl | ha
          · exact List.mem_cons_self ..
          · exact List.mem_cons_of_mem _ (ih hrest ha)

/-- A deed keeps the entries that it does not drop. -/
theorem BusDeed.mem_amend [DecidableEq κ] {t : Topic} {table : List (Entry κ)} {d : BusDeed κ π}
    {a : Entry κ} (ha : a ∈ table) (hd : ¬d.Drops t a) : a ∈ d.amend t table := by
  cases d with
  | subscribe t' entry =>
    by_cases ht : t' = t
    · simp only [BusDeed.amend, ht, if_true]
      cases hinsert : insertEntry entry table with
      | error m => exact ha
      | ok table' => exact mem_insertEntry hinsert ha
    · simpa [BusDeed.amend, ht] using ha
  | unsubscribe t' k =>
    by_cases ht : t' = t
    · have hk : a.handler ≠ k := fun hk => hd ⟨ht, hk⟩
      simp [BusDeed.amend, ht, ha, hk]
    · simpa [BusDeed.amend, ht] using ha
  | clear t' =>
    cases t' with
    | none => exact absurd trivial hd
    | some t' =>
      have ht : ¬t' = t := hd
      simpa [BusDeed.amend, ht] using ha
  | publish e => exact ha

namespace Exchange
variable {σ κ π : Type} [DecidableEq κ] {x : Exchange σ κ π} {H : x.Conduct}
  {past : List (BusDeed κ π)}

/-- **One-shot subscriptions go with their equals.** Wherever code comes to, a deed keeps the
subscriptions that it does not drop. A delivery calls the handlers of the first entries of its
table, and it takes from the table, as the handlers leave it, the entries that equal a one-shot
entry among these and no other; it takes nothing from the tables of other topics. -/
theorem one_shots_go_with_their_equals (hx : x.Lawful) {s : σ} (hs : H.Reaches past s)
    (hfirm : ∀ d ∈ past, d.IsFirm) :
    (∀ d : BusDeed κ π, d.publication? = none ∨ (x.bus s).delivering = true →
      ∀ t, ∀ a ∈ (x.bus s).table t, ¬d.Drops t a →
        a ∈ (x.bus (x.perform cascadeLimit d s)).table t) ∧
    ((x.bus s).delivering = false → ∀ e,
      (∀ d ∈ (x.calls e s).flatMap H.deedsOf, d.IsFirm) →
      ∃ served unserved, (x.bus s).table e.topic = served ++ unserved ∧
        x.Answers e served unserved (x.calls e s) ∧
        ∀ t, (x.bus (x.deliver e s).1).table t =
          (H.leaves t s (x.calls e s)).filter fun a =>
            !decide (t = e.topic ∧ ∃ b ∈ served, b.oneShot ∧ a.same b)) := by
  have hordered := hs.ordered hx hfirm
  refine ⟨?_, ?_⟩
  · intro d hd t a ha hkeeps
    rw [hx.bus_deed hd, Bus.table_heed _ _ _ _ ((hordered t).firm hfirm)]
    exact BusDeed.mem_amend ha hkeeps
  · intro hout e hdeeds
    obtain ⟨served, unserved, hsplit, hanswers, hdeliver, -⟩ := deliver_table hx H e hordered hfirm
    refine ⟨served, unserved, hsplit, hanswers, fun t => ?_⟩
    have hall : ∀ d ∈ past ++ (x.calls e s).flatMap H.deedsOf, d.IsFirm := by
      intro d hd
      rcases List.mem_append.1 hd with hd | hd
      · exact hfirm d hd
      · exact hdeeds d hd
    rw [hdeliver hall t]
    by_cases ht : t = e.topic
    · rw [if_pos ht]
      refine List.filter_congr fun a ha => ?_
      congr 1
      simp [ht, List.any_eq, List.mem_filter, and_assoc]
    · rw [if_neg ht, eq_comm, List.filter_eq_self]
      intro a _
      simp [ht]

end Exchange

/-! ## An encore -/

namespace Forum
open Exchange

/-- A forum where a singer, whenever it is called, subscribes once more and consumes the event. -/
def encore : Forum where
  scripts := [("singer", [always (.subscribe "singer" .lineStarted (.int 0) true false),
    ⟨.consume, none⟩])]

/-- The subscription of the singer, for one event only. -/
def song : BusDeed String (List (String × Json)) :=
  .subscribe .lineStarted ⟨.int 0, "singer", true, false⟩

/-- The forum with the singer subscribed twice. -/
def openEncore : Forum :=
  exchange.perform cascadeLimit song (exchange.perform cascadeLimit song encore)

theorem openEncore_reached : conduct.Reaches [song, song] openEncore :=
  ((Conduct.Reaches.fresh rfl).deed _ (.inl rfl)).deed _ (.inl rfl)

theorem songs_firm : ∀ d ∈ [song, song], d.IsFirm := by
  intro d hd
  simp only [List.mem_cons, List.not_mem_nil, or_false, or_self] at hd
  rw [hd]
  exact ⟨rfl, rfl⟩

/-- The singer is called once, and then neither the subscription that was not served is there nor
the one that was made meanwhile. -/
theorem encore_is_dropped : conduct.Reaches [song, song] openEncore ∧
    (∀ d ∈ [song, song], d.IsFirm) ∧
    (∃ served unserved, openEncore.bus.table .lineStarted = served ++ unserved ∧
      exchange.Answers lineStarts served unserved (exchange.calls lineStarts openEncore) ∧
      ∀ t, (exchange.deliver lineStarts openEncore).1.bus.table t =
        (conduct.leaves t openEncore (exchange.calls lineStarts openEncore)).filter fun a =>
          !decide (t = .lineStarted ∧ ∃ b ∈ served, b.oneShot ∧ a.same b)) ∧
    (exchange.calls lineStarts openEncore).map (·.handler) = ["singer"] ∧
    (conduct.leaves .lineStarted openEncore (exchange.calls lineStarts openEncore)).length = 3 ∧
    (exchange.deliver lineStarts openEncore).1.bus.table .lineStarted = [] := by
  obtain ⟨-, hdelivers⟩ :=
    one_shots_go_with_their_equals exchange_lawful openEncore_reached songs_firm
  have hdeeds : ∀ d ∈ (exchange.calls lineStarts openEncore).flatMap conduct.deedsOf,
      d.IsFirm := by
    intro d hd
    rw [show (exchange.calls lineStarts openEncore).flatMap conduct.deedsOf = [song] from rfl,
      List.mem_singleton] at hd
    exact songs_firm d (by simp [hd])
  exact ⟨openEncore_reached, songs_firm, hdelivers rfl lineStarts hdeeds, rfl, rfl, rfl⟩

end Forum
end VisualNovel
