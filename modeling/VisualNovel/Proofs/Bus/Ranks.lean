import VisualNovel.Proofs.Bus.Conduct
/-!
# The order of tables

The table of a topic has the subscriptions to it by rank: those of higher rank come first, and those
of one rank as they were made (`Arranged`). A new entry finds its place behind its equals
(`Arranged.insert`), what goes leaves the others in their order (`Arranged.filter`), and so every
deed leaves an ordered table ordered (`Ordered.amend`).

All this is about subscriptions that keep their handlers alive, with integers for their priorities.
-/
namespace VisualNovel

/-! ## Ranks -/

/-- The rank of an entry: its priority, as an integer. -/
def Entry.rank (entry : Entry κ) : Int :=
  match entry.priority.number with
  | .ok (.int n) => n
  | _ => 0

/-- An entry that keeps its handler alive and has an integer for its priority. -/
structure Entry.IsFirm (entry : Entry κ) : Prop where
  strong : entry.weak = false
  ranked : entry.priority.number = .ok (.int entry.rank)

theorem outranks_of_number {p q : Json} {m n : Int} (hp : p.number = .ok (.int m))
    (hq : q.number = .ok (.int n)) : outranks p q = .ok (decide (n < m)) := by
  have hless : outranks p q = do return Number.lt (← q.number) (← p.number) := by
    unfold outranks
    cases q <;> cases p <;> simp_all [Json.less, Json.number]
  rw [hless, hp, hq]
  rfl

/-- A table with the entries of a list: those of higher rank come first, and those of one rank in
the order of the list. -/
structure Arranged (table es : List (Entry κ)) : Prop where
  sorted : table.Pairwise fun a b => b.rank ≤ a.rank
  stable : ∀ n, table.filter (·.rank = n) = es.filter (·.rank = n)

namespace Arranged
variable {table es : List (Entry κ)}

theorem nil : Arranged ([] : List (Entry κ)) [] := ⟨.nil, fun _ => rfl⟩

theorem mem (h : Arranged table es) {entry : Entry κ} (hentry : entry ∈ table) : entry ∈ es := by
  have hrank : entry ∈ table.filter (·.rank = entry.rank) := by simp [hentry]
  rw [h.stable] at hrank
  exact (List.mem_filter.1 hrank).1

/-- What goes from the list goes from the table. -/
theorem filter (h : Arranged table es) (p : Entry κ → Bool) :
    Arranged (table.filter p) (es.filter p) := by
  refine ⟨h.sorted.filter p, fun n => ?_⟩
  simp only [List.filter_filter]
  have hswap (l : List (Entry κ)) : l.filter (fun a => decide (a.rank = n) && p a) =
      (l.filter (·.rank = n)).filter p := by
    rw [List.filter_filter]
    congr 1
    funext a
    exact Bool.and_comm _ _
  rw [hswap, hswap, h.stable]

end Arranged

/-- A new entry comes behind those of its rank or a higher one, and before all others. -/
theorem insertEntry_firm {entry : Entry κ} (hentry : entry.IsFirm) {table : List (Entry κ)}
    (hfirm : ∀ a ∈ table, a.IsFirm) (hsorted : table.Pairwise fun a b => b.rank ≤ a.rank) :
    ∃ l r, table = l ++ r ∧ insertEntry entry table = .ok (l ++ entry :: r) ∧
      (∀ a ∈ l, entry.rank ≤ a.rank) ∧ ∀ a ∈ r, a.rank < entry.rank := by
  induction table with
  | nil => exact ⟨[], [], rfl, rfl, by simp, by simp⟩
  | cons a table ih =>
    obtain ⟨hhead, htail⟩ := List.pairwise_cons.1 hsorted
    have hranks := outranks_of_number hentry.ranked (hfirm a (by simp)).ranked
    by_cases hlt : a.rank < entry.rank
    · refine ⟨[], a :: table, rfl, ?_, by simp, ?_⟩
      · unfold insertEntry
        rw [hranks]
        simp [hlt, bind, Except.bind]
      · intro b hb
        rcases List.mem_cons.1 hb with rfl | hb
        · exact hlt
        · have := hhead b hb
          omega
    · obtain ⟨l, r, rfl, hinsert, hl, hr⟩ := ih (fun b hb => hfirm b (by simp [hb])) htail
      refine ⟨a :: l, r, rfl, ?_, ?_, hr⟩
      · unfold insertEntry
        rw [hranks, hinsert]
        simp [hlt, bind, Except.bind, pure, Except.pure]
      · intro b hb
        rcases List.mem_cons.1 hb with rfl | hb
        · omega
        · exact hl b hb

/-- A table with a new entry has it behind those that were there. -/
theorem Arranged.insert {table es : List (Entry κ)} (h : Arranged table es) {entry : Entry κ}
    (hentry : entry.IsFirm) (hfirm : ∀ a ∈ table, a.IsFirm) :
    ∃ table', insertEntry entry table = .ok table' ∧ Arranged table' (es ++ [entry]) := by
  obtain ⟨l, r, rfl, hinsert, hl, hr⟩ := insertEntry_firm hentry hfirm h.sorted
  obtain ⟨hsortedl, hsortedr, hbetween⟩ := List.pairwise_append.1 h.sorted
  refine ⟨_, hinsert, ?_, fun n => ?_⟩
  · refine List.pairwise_append.2 ⟨hsortedl, List.pairwise_cons.2 ⟨?_, hsortedr⟩, ?_⟩
    · intro b hb
      have := hr b hb
      omega
    · intro a ha b hb
      rcases List.mem_cons.1 hb with rfl | hb
      · exact hl a ha
      · exact hbetween a ha b hb
  · have hstable := h.stable n
    rw [List.filter_append] at hstable
    rw [List.filter_append, List.filter_append, List.filter_cons, ← hstable, List.append_assoc]
    by_cases hn : entry.rank = n
    · have hnone : r.filter (·.rank = n) = [] := by
        rw [List.filter_eq_nil_iff]
        intro b hb
        have := hr b hb
        simp
        omega
      simp [hn, hnone]
    · simp [hn]

/-! ## What deeds make of a table -/

/-- A deed that subscribes no entry but a firm one. -/
def BusDeed.IsFirm : BusDeed κ π → Prop
  | .subscribe _ entry => entry.IsFirm
  | _ => True

/-- The subscription to a topic that a deed makes. -/
def BusDeed.subscription? (t : Topic) : BusDeed κ π → Option (Entry κ)
  | .subscribe t' entry => if t' = t then some entry else none
  | _ => none

/-- The subscriptions to a topic that deeds make, in order. -/
def subscriptions (t : Topic) (ds : List (BusDeed κ π)) : List (Entry κ) :=
  ds.filterMap (BusDeed.subscription? t)

/-- What a deed makes of the table of a topic. -/
def BusDeed.amend [DecidableEq κ] (t : Topic) (table : List (Entry κ)) :
    BusDeed κ π → List (Entry κ)
  | .subscribe t' entry =>
    if t' = t then
      match insertEntry entry table with
      | .ok table' => table'
      | .error _ => table
    else table
  | .unsubscribe t' k => if t' = t then table.filter (·.handler ≠ k) else table
  | .clear none => []
  | .clear (some t') => if t' = t then [] else table
  | .publish _ => table

/-- What deeds make of the table of a topic. -/
def amended [DecidableEq κ] (t : Topic) (table : List (Entry κ)) (ds : List (BusDeed κ π)) :
    List (Entry κ) := ds.foldl (BusDeed.amend t) table

/-- A table that is arranged by rank, with subscriptions that deeds made, in the order in which
these were made. -/
def Ordered (t : Topic) (ds : List (BusDeed κ π)) (table : List (Entry κ)) : Prop :=
  ∃ es, es.Sublist (subscriptions t ds) ∧ Arranged table es

theorem Ordered.firm {t : Topic} {ds : List (BusDeed κ π)} {table : List (Entry κ)}
    (h : Ordered t ds table) (hds : ∀ d ∈ ds, d.IsFirm) : ∀ a ∈ table, a.IsFirm := by
  intro a ha
  obtain ⟨es, hes, harranged⟩ := h
  obtain ⟨d, hd, hsubscription⟩ := List.mem_filterMap.1 (hes.subset (harranged.mem ha))
  have hfirm := hds d hd
  cases d with
  | subscribe t' entry =>
    by_cases ht : t' = t
    · simp only [BusDeed.subscription?, ht, if_true, Option.some.injEq] at hsubscription
      rw [← hsubscription]
      exact hfirm
    · simp [BusDeed.subscription?, ht] at hsubscription
  | unsubscribe t' k => simp [BusDeed.subscription?] at hsubscription
  | clear t' => simp [BusDeed.subscription?] at hsubscription
  | publish e => simp [BusDeed.subscription?] at hsubscription

/-- What goes from an ordered table leaves it ordered. -/
theorem Ordered.filter {t : Topic} {ds : List (BusDeed κ π)} {table : List (Entry κ)}
    (h : Ordered t ds table) (p : Entry κ → Bool) : Ordered t ds (table.filter p) := by
  obtain ⟨es, hes, harranged⟩ := h
  exact ⟨es.filter p, List.filter_sublist.trans hes, harranged.filter p⟩

section Amend
variable [DecidableEq κ] {t : Topic} {ds : List (BusDeed κ π)} {table : List (Entry κ)}

/-- Every deed leaves an ordered table ordered. -/
theorem Ordered.amend (h : Ordered t ds table) (hds : ∀ d ∈ ds, d.IsFirm) {d : BusDeed κ π}
    (hd : d.IsFirm) : Ordered t (ds ++ [d]) (d.amend t table) := by
  have hlater {d : BusDeed κ π} {table' : List (Entry κ)} (h' : Ordered t ds table') :
      Ordered t (ds ++ [d]) table' := by
    obtain ⟨es, hes, harranged⟩ := h'
    refine ⟨es, hes.trans ?_, harranged⟩
    simp [subscriptions, List.filterMap_append]
  have hnone : Ordered t ds ([] : List (Entry κ)) := ⟨[], List.nil_sublist _, .nil⟩
  cases d with
  | subscribe t' entry =>
    by_cases ht : t' = t
    · have hfirm := h.firm hds
      obtain ⟨es, hes, harranged⟩ := h
      obtain ⟨table', hinsert, harranged'⟩ := harranged.insert hd hfirm
      refine ⟨es ++ [entry], ?_, ?_⟩
      · simpa [subscriptions, BusDeed.subscription?, ht] using hes.append (List.Sublist.refl [entry])
      · simpa [BusDeed.amend, ht, hinsert] using harranged'
    · exact hlater (by simpa [BusDeed.amend, ht] using h)
  | unsubscribe t' k =>
    by_cases ht : t' = t
    · exact hlater (by simpa [BusDeed.amend, ht] using h.filter (·.handler ≠ k))
    · exact hlater (by simpa [BusDeed.amend, ht] using h)
  | clear t' =>
    cases t' with
    | none => exact hlater hnone
    | some t' =>
      by_cases ht : t' = t
      · exact hlater (by simpa [BusDeed.amend, ht] using hnone)
      · exact hlater (by simpa [BusDeed.amend, ht] using h)
  | publish e => exact hlater h

/-- What a deed does to the bus, it does to the table of each topic. -/
theorem Bus.table_heed (live : κ → Bool) (b : Bus κ π) (d : BusDeed κ π) (t : Topic)
    (hfirm : ∀ a ∈ b.table t, a.IsFirm) :
    (b.heed live d).table t = d.amend t (b.table t) := by
  cases d with
  | subscribe t' entry =>
    simp only [Bus.heed, BusDeed.amend, Bus.subscribe]
    by_cases ht : t' = t
    · subst ht
      cases insertEntry entry (b.table t') with
      | error m => simp [Except.map]
      | ok table' => simp [Except.map, table_setTable]
    · cases insertEntry entry (b.table t') with
      | error m => simp [Except.map, ht]
      | ok table' => simp [Except.map, table_setTable, ht, Ne.symm ht]
  | unsubscribe t' k =>
    simp only [Bus.heed, BusDeed.amend, Bus.unsubscribe, table_setTable]
    by_cases ht : t' = t
    · subst ht
      simp only [if_true]
      refine List.filter_congr fun a ha => ?_
      simp [(hfirm a ha).strong]
    · simp [ht, Ne.symm ht]
  | clear t' =>
    cases t' with
    | none => rfl
    | some t' =>
      simp only [Bus.heed, BusDeed.amend, Bus.clear, Bus.table, Assoc.lookup_erase]
      by_cases ht : t' = t
      · simp [ht]
      · simp [ht, Ne.symm ht]
  | publish e => rfl

theorem amended_append (t : Topic) (table : List (Entry κ)) (ds ds' : List (BusDeed κ π)) :
    amended t table (ds ++ ds') = amended t (amended t table ds) ds' := List.foldl_append

/-- Deeds leave an ordered table ordered. -/
theorem Ordered.amended (h : Ordered t ds table) {ds' : List (BusDeed κ π)}
    (hfirm : ∀ d ∈ ds ++ ds', d.IsFirm) :
    Ordered t (ds ++ ds') (VisualNovel.amended t table ds') := by
  induction ds' generalizing ds table with
  | nil => simpa [VisualNovel.amended] using h
  | cons d ds' ih =>
    have hnext := h.amend (fun d' hd' => hfirm d' (by simp [hd'])) (hfirm d (by simp))
    have hrest := ih hnext (fun d' hd' => hfirm d' (by simpa using hd'))
    simpa [VisualNovel.amended] using hrest

end Amend

end VisualNovel
