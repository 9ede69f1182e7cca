import VisualNovel.Bus
/-!
# Deliveries

What every handler keeps, the service of the entries keeps (`serve_keeps`), as long as no
subscription is for one event only or weak. If besides each delivery either lowers a measure or
brings about no event, then a cascade comes to its end, and no event waits after it
(`exhaust_settles`).
-/
namespace VisualNovel

/-! ## Tables -/

namespace Bus
variable {κ π : Type}

/-- Two buses with the same subscriptions and the same events that wait. -/
structure Same (b b' : Bus κ π) : Prop where
  table : ∀ t, b'.table t = b.table t
  queue : b'.queue = b.queue

theorem table_setTable (b : Bus κ π) (t : Topic) (es : List (Entry κ)) (t' : Topic) :
    (b.setTable t es).table t' = if t' = t then es else b.table t' := by
  unfold setTable table
  rw [Assoc.lookup_upsert]
  split <;> rfl

theorem setTable_same (b : Bus κ π) (t : Topic) : b.Same (b.setTable t (b.table t)) := by
  refine ⟨fun t' => ?_, rfl⟩
  rw [table_setTable]
  split
  · next h => rw [h]
  · rfl

end Bus

/-- A subscription that lasts. -/
def Entry.lasts (e : Entry κ) : Prop := e.oneShot = false ∧ e.weak = false

/-- A subscription with an integer for its priority. -/
def Entry.isRanked (e : Entry κ) : Prop := ∃ n, e.priority = .int n

theorem outranks_int (m n : Int) : outranks (.int m) (.int n) = .ok (decide (n < m)) := by
  simp [outranks, Json.less, Json.number, Number.lt]
  rfl

/-- Among entries with integers for their priorities an entry finds its place. -/
theorem insertEntry_ranked {e : Entry κ} (he : e.isRanked) {es : List (Entry κ)}
    (hes : ∀ a ∈ es, a.isRanked) :
    ∃ l r, insertEntry e es = .ok (l ++ e :: r) ∧ es = l ++ r := by
  induction es with
  | nil => exact ⟨[], [], rfl, rfl⟩
  | cons a es ih =>
    obtain ⟨l, r, hl, hr⟩ := ih fun b hb => hes b (List.mem_cons_of_mem _ hb)
    obtain ⟨m, hm⟩ := he
    obtain ⟨n, hn⟩ := hes a (List.mem_cons_self ..)
    unfold insertEntry
    rw [hm, hn, outranks_int, hl]
    by_cases h : n < m
    · exact ⟨[], a :: es, by simp [h, bind, Except.bind], rfl⟩
    · exact ⟨a :: l, r, by simp [h, bind, Except.bind, pure, Except.pure], by rw [hr]; rfl⟩

/-- The first entry stays the first if the new one does not outrank it. -/
theorem insertEntry_cons {e a : Entry κ} {m n : Int} (he : e.priority = .int m)
    (ha : a.priority = .int n) (h : m ≤ n) (es : List (Entry κ)) :
    insertEntry e (a :: es) = (insertEntry e es).map (a :: ·) := by
  rw [insertEntry, he, ha, outranks_int]
  have hlt : ¬n < m := by omega
  cases insertEntry e es <;> simp [hlt, bind, Except.bind, pure, Except.pure, Except.map]

/-- An entry finds its place behind those that it does not outrank and before those of lower
priority. -/
theorem insertEntry_between {e : Entry κ} {m : Int} (he : e.priority = .int m) {l r : List (Entry κ)}
    (hl : ∀ a ∈ l, ∃ n, a.priority = .int n ∧ m ≤ n)
    (hr : ∀ a ∈ r.head?, ∃ n, a.priority = .int n ∧ n < m) :
    insertEntry e (l ++ r) = .ok (l ++ e :: r) := by
  induction l with
  | nil =>
    cases r with
    | nil => rfl
    | cons a r =>
      obtain ⟨n, hn, hlt⟩ := hr a rfl
      show insertEntry e (a :: r) = _
      rw [insertEntry, he, hn, outranks_int]
      simp [hlt, bind, Except.bind]
  | cons a l ih =>
    obtain ⟨n, hn, hle⟩ := hl a (List.mem_cons_self ..)
    show insertEntry e (a :: (l ++ r)) = _
    rw [insertEntry_cons he hn hle, ih fun b hb => hl b (List.mem_cons_of_mem _ hb)]
    rfl

namespace Exchange
variable {σ κ π : Type} {x : Exchange σ κ π} {J : σ → Prop} {e : Event π}

/-! ## One delivery -/

/-- What serving an entry does to the world. -/
def attend (x : Exchange σ κ π) (e : Event π) (s : σ) (entry : Entry κ) : σ :=
  (x.invoke e entry.handler (x.modify (fun b => { b with serving := some entry.handler }) s)).1

/-- Where no handler consumes an event, every entry is served. -/
theorem serve_eq_foldl (hfree : ∀ k e s, (x.call k e s).2.consumed = false) (es : List (Entry κ))
    (hlasts : ∀ entry ∈ es, entry.lasts) (s : σ) :
    x.serve e es s = (es.foldl (x.attend e) s, [], false) := by
  induction es generalizing s with
  | nil => rfl
  | cons entry es ih =>
    obtain ⟨hone, hweak⟩ := hlasts entry (List.mem_cons_self ..)
    have hconsumed : (x.invoke e entry.handler
        (x.modify (fun b => { b with serving := some entry.handler }) s)).2 = false := hfree _ _ _
    unfold serve
    simp only [hweak, hone, hconsumed, Bool.false_and, Bool.false_eq_true, if_false,
      ih fun a ha => hlasts a (List.mem_cons_of_mem _ ha)]
    rfl

theorem invoke_keeps (hreport : ∀ s, J s → J (x.report e.topic.failure s)) {k : κ} {s : σ}
    (h : J (x.call k e s).1) : J (x.invoke e k s).1 := by
  unfold invoke
  simp only
  split
  · exact hreport _ h
  · exact h

/-- What every handler keeps, the service of the entries keeps. -/
theorem serve_keeps (hbus : ∀ s b, J s → (x.bus s).Same b → J (x.withBus b s))
    (hreport : ∀ s, J s → J (x.report e.topic.failure s)) (es : List (Entry κ))
    (hlasts : ∀ entry ∈ es, entry.lasts)
    (hcall : ∀ entry ∈ es, ∀ s, J s → J (x.call entry.handler e s).1) (s : σ) (hs : J s) :
    J (x.serve e es s).1 ∧ (x.serve e es s).2.1 = [] := by
  induction es generalizing s with
  | nil => exact ⟨hs, rfl⟩
  | cons entry es ih =>
    obtain ⟨hone, hweak⟩ := hlasts entry (List.mem_cons_self ..)
    have ih := ih (fun a ha => hlasts a (List.mem_cons_of_mem _ ha))
      (fun a ha => hcall a (List.mem_cons_of_mem _ ha))
    have hcalled : J (x.invoke e entry.handler
        (x.modify (fun b => { b with serving := some entry.handler }) s)).1 :=
      invoke_keeps hreport (hcall entry (List.mem_cons_self ..) _ (hbus s
        { x.bus s with serving := some entry.handler } hs ⟨fun _ => rfl, rfl⟩))
    unfold serve
    simp only [hweak, hone, Bool.false_and, Bool.false_eq_true, if_false, List.nil_append]
    split
    · exact ⟨hcalled, rfl⟩
    · exact ih _ hcalled

/-- The first entry makes `J` of `J₀`, and the others keep it. -/
theorem serve_first (J₀ : σ → Prop) (hbus₀ : ∀ s b, J₀ s → (x.bus s).Same b → J₀ (x.withBus b s))
    (hbus : ∀ s b, J s → (x.bus s).Same b → J (x.withBus b s))
    (hreport : ∀ s, J s → J (x.report e.topic.failure s)) (first : Entry κ) (es : List (Entry κ))
    (hlasts : ∀ entry ∈ first :: es, entry.lasts)
    (hfirst : ∀ s, J₀ s → J (x.call first.handler e s).1 ∧ (x.call first.handler e s).2 = {})
    (hcall : ∀ entry ∈ es, ∀ s, J s → J (x.call entry.handler e s).1) (s : σ) (hs : J₀ s) :
    J (x.serve e (first :: es) s).1 ∧ (x.serve e (first :: es) s).2.1 = [] := by
  obtain ⟨hone, hweak⟩ := hlasts first (List.mem_cons_self ..)
  have hserving := hbus₀ s { x.bus s with serving := some first.handler } hs ⟨fun _ => rfl, rfl⟩
  change J₀ (x.modify (fun b => { b with serving := some first.handler }) s) at hserving
  obtain ⟨hJ, hreply⟩ := hfirst _ hserving
  have hinvoke : x.invoke e first.handler
      (x.modify (fun b => { b with serving := some first.handler }) s) =
        ((x.call first.handler e (x.modify (fun b => { b with
          serving := some first.handler }) s)).1, false) := by
    unfold invoke
    simp [hreply]
  unfold serve
  simp only [hweak, hone, hinvoke, Bool.false_and, Bool.false_eq_true, if_false, List.nil_append]
  exact serve_keeps hbus hreport es (fun a ha => hlasts a (List.mem_cons_of_mem _ ha)) hcall _ hJ

variable [DecidableEq κ]

/-- A delivery that spends no entry keeps what the service of the entries leads to. -/
theorem deliver_of_serve (hbus : ∀ s b, J s → (x.bus s).Same b → J (x.withBus b s)) (s : σ)
    (hserved : J (x.serve e ((x.bus s).table e.topic)
      (x.modify (·.begin ((x.bus s).table e.topic)) s)).1)
    (hspent : (x.serve e ((x.bus s).table e.topic)
      (x.modify (·.begin ((x.bus s).table e.topic)) s)).2.1 = []) : J (x.deliver e s).1 := by
  unfold deliver
  have hall (es : List (Entry κ)) : es.filter (fun _ => true) = es :=
    List.filter_eq_self.2 fun _ _ => rfl
  simp only [hspent, List.any_nil, Bool.not_false, hall]
  exact hbus _ _ hserved ⟨(Bus.setTable_same _ e.topic).table, rfl⟩

/-- Where no handler consumes an event, a delivery serves every entry and then is over. -/
theorem deliver_eq (hfree : ∀ k e s, (x.call k e s).2.consumed = false) (s : σ)
    (hlasts : ∀ entry ∈ (x.bus s).table e.topic, entry.lasts) :
    x.deliver e s =
      (x.modify (fun b => { b.setTable e.topic (b.table e.topic) with delivering := false })
        (((x.bus s).table e.topic).foldl (x.attend e)
          (x.modify (·.begin ((x.bus s).table e.topic)) s)), false) := by
  have hall (es : List (Entry κ)) : es.filter (fun _ => true) = es :=
    List.filter_eq_self.2 fun _ _ => rfl
  unfold deliver
  simp only [serve_eq_foldl hfree _ hlasts, List.any_nil, Bool.not_false, hall]

theorem delivering_deliver (hlaw : ∀ b s, x.bus (x.withBus b s) = b) (s : σ) :
    (x.bus (x.deliver e s).1).delivering = false := by
  unfold deliver modify
  rw [hlaw]

/-! ## Cascades -/

variable {m : σ → Nat}

/-- Deliveries that bring about an event lower the measure. -/
theorem drain_keeps
    (hdeliver : ∀ s e rest, J s → (x.bus s).queue = e :: rest →
      let s' := (x.deliver e (x.modify (fun b => { b with queue := rest }) s)).1
      J s' ∧ (m s' < m s ∨ m s' = m s ∧ (x.bus s').queue = rest))
    (count : Nat) (s : σ) (hs : J s) :
    J (x.drain count s) ∧ (m (x.drain count s) < m s ∨
      m (x.drain count s) = m s ∧
        (x.bus (x.drain count s)).queue = (x.bus s).queue.drop count) := by
  induction count generalizing s with
  | zero => exact ⟨hs, Or.inr ⟨rfl, rfl⟩⟩
  | succ count ih =>
    unfold drain
    match hq : (x.bus s).queue with
    | [] => exact ⟨hs, Or.inr ⟨rfl, hq⟩⟩
    | e :: rest =>
      simp only
      obtain ⟨hJ, hd⟩ := hdeliver s e rest hs hq
      obtain ⟨hJ', hd'⟩ := ih _ hJ
      refine ⟨hJ', ?_⟩
      rcases hd with hlt | ⟨heq, hrest⟩
      · exact Or.inl (by omega)
      · rcases hd' with hlt' | ⟨heq', hrest'⟩
        · exact Or.inl (by omega)
        · refine Or.inr ⟨by omega, ?_⟩
          rw [hrest', hrest, List.drop_succ_cons]

theorem exhaust_nil {s : σ} (h : (x.bus s).queue = []) (rounds : Nat) : x.exhaust rounds s = s := by
  cases rounds with
  | zero => rfl
  | succ rounds =>
    unfold exhaust
    rw [h]

/-- A cascade comes to its end within as many rounds as the measure allows. -/
theorem exhaust_settles
    (hdrain : ∀ count s, J s → J (x.drain count s) ∧ (m (x.drain count s) < m s ∨
      m (x.drain count s) = m s ∧ (x.bus (x.drain count s)).queue = (x.bus s).queue.drop count))
    (rounds : Nat) (s : σ) (hs : J s) (hm : m s < rounds) :
    J (x.exhaust rounds s) ∧ (x.bus (x.exhaust rounds s)).queue = [] := by
  induction rounds generalizing s with
  | zero => omega
  | succ rounds ih =>
    unfold exhaust
    match hq : (x.bus s).queue with
    | [] => exact ⟨hs, hq⟩
    | e :: rest =>
      simp only
      obtain ⟨hJ, hd⟩ := hdrain (e :: rest).length s hs
      -- Either the round lowered the measure, or it delivered all that waited and no event came.
      rcases hd with hlt | ⟨-, hnil⟩
      · exact ih _ hJ (by omega)
      · rw [hq, List.drop_length] at hnil
        rw [exhaust_nil hnil]
        exact ⟨hJ, hnil⟩

end Exchange
end VisualNovel
