import Mathlib.Logic.Basic
import VisualNovel.Proofs.SceneStack.Accounts
/-!
# Lives of scenes

A scene that is put on the stack once at most has a life: it comes to the top, is covered and comes to
the top again, and is removed (`SceneLife`). How it fares in a single change depends on where it lies
before and after it (`SceneChange.Fares`), and so what it was told up to now depends on where it
stands now (`SceneAccount.Played.life`). One way to go is peculiar: who is covered when all scenes are
removed is told to go without having come back (`SceneLife.swept`).

Of scenes that are put on the stack more often the number of removals is known
(`SceneAccount.Played.count_destroy`).
-/
namespace VisualNovel

variable {κ : Type}

namespace SceneChange

/-- Changes made on a plain list, which is empty at first, with copies of scenes in stock. -/
def plainly (changes : List (SceneChange κ)) (copies : List κ) : Option (List κ × List κ) :=
  changes.foldlM (fun p c => c.plain? p) ([], copies)

/-- The scenes that are put on the stack, in the order of the changes and of the copies. -/
def handed (changes : List (SceneChange κ)) (copies : List κ) : List κ :=
  changes.filterMap scene? ++ copies

/-- The scenes that are removed while another is on top. -/
def sweeps : SceneChange κ → (stack : List κ) → List κ
  | .clear, stack => stack.tail
  | _, _ => []

theorem mem_sweeps {c : SceneChange κ} {stack : List κ} {k : κ} :
    k ∈ c.sweeps stack ↔ c = .clear ∧ k ∈ stack.tail := by
  cases c <;> simp [sweeps]

/-- The scenes that changes remove while another is on top. -/
def swept : List (SceneChange κ) → List κ × List κ → List κ
  | [], _ => []
  | c :: changes, p => c.sweeps p.1 ++ (c.plain? p).elim [] fun p => swept changes p

/-- More copies in stock make no difference. -/
theorem plain?_more {c : SceneChange κ} {p p' : List κ × List κ} (h : c.plain? p = some p')
    (more : List κ) : c.plain? (p.1, p.2 ++ more) = some (p'.1, p'.2 ++ more) := by
  obtain ⟨stack, copies⟩ := p
  cases c with
  | reload =>
    cases stack with
    | nil => cases h; rfl
    | cons top below =>
      cases copies with
      | nil => cases h
      | cons copy copies => cases h; rfl
  | _ => cases h; rfl

theorem plain?_reload {top : κ} {below copied stack : List κ}
    (h : reload.plain? (top :: below, copied) = some (stack, [])) :
    ∃ copy, copied = [copy] ∧ stack = copy :: below := by
  cases copied with
  | nil => cases h
  | cons copy copies =>
    cases h
    exact ⟨copy, rfl, rfl⟩

variable {changes : List (SceneChange κ)} {p p' : List κ × List κ}

theorem foldlM_plain?_more (h : changes.foldlM (fun p c => c.plain? p) p = some p')
    (more : List κ) :
    changes.foldlM (fun p c => c.plain? p) (p.1, p.2 ++ more) = some (p'.1, p'.2 ++ more) := by
  induction changes generalizing p with
  | nil => cases h; rfl
  | cons c changes ih =>
    rw [List.foldlM_cons] at h ⊢
    obtain ⟨p₁, hc, hrest⟩ := Option.bind_eq_some_iff.1 h
    rw [plain?_more hc more]
    exact ih hrest

theorem swept_more (h : changes.foldlM (fun p c => c.plain? p) p = some p') (more : List κ) :
    swept changes (p.1, p.2 ++ more) = swept changes p := by
  induction changes generalizing p with
  | nil => rfl
  | cons c changes ih =>
    rw [List.foldlM_cons] at h
    obtain ⟨p₁, hc, hrest⟩ := Option.bind_eq_some_iff.1 h
    unfold swept
    rw [plain?_more hc more, hc]
    exact congrArg (c.sweeps p.1 ++ ·) (ih hrest)

theorem swept_snoc (h : changes.foldlM (fun p c => c.plain? p) p = some p') (c : SceneChange κ) :
    swept (changes ++ [c]) p = swept changes p ++ c.sweeps p'.1 := by
  induction changes generalizing p with
  | nil =>
    cases h
    rw [List.nil_append, swept, swept, List.nil_append]
    cases c.plain? _ <;> simp [swept]
  | cons d changes ih =>
    rw [List.foldlM_cons] at h
    obtain ⟨p₁, hd, hrest⟩ := Option.bind_eq_some_iff.1 h
    simp only [List.cons_append, swept, hd, Option.elim_some, ih hrest, List.append_assoc]

end SceneChange

/-- What a scene was told. -/
def cuesOf [DecidableEq κ] (told : List (Telling κ)) (k : κ) : List SceneCue :=
  (told.filter (·.scene = k)).map (·.cue)

section
variable [DecidableEq κ] {k : κ}

@[simp] theorem cuesOf_nil : cuesOf ([] : List (Telling κ)) k = [] := rfl

@[simp] theorem cuesOf_cons (m : Telling κ) (told : List (Telling κ)) :
    cuesOf (m :: told) k = if m.scene = k then m.cue :: cuesOf told k else cuesOf told k := by
  unfold cuesOf
  by_cases h : m.scene = k <;> simp [h]

@[simp] theorem cuesOf_append (told told' : List (Telling κ)) :
    cuesOf (told ++ told') k = cuesOf told k ++ cuesOf told' k := by simp [cuesOf]

end

namespace SceneChange
variable [DecidableEq κ] {k : κ} {c : SceneChange κ} {stack stack' copied : List κ}

theorem cuesOf_removal (x : κ) :
    cuesOf (removal x) k = if x = k then [.exit, .destroy] else [] := by
  by_cases h : x = k <;> simp [removal, h]

theorem cuesOf_arrivals (stack : List κ) :
    cuesOf (stack.head?.toList.map fun x => Telling.mk .enter x) k =
      if stack.head? = some k then [.enter] else [] := by
  cases stack with
  | nil => rfl
  | cons top below => by_cases h : top = k <;> simp [h]

theorem count_destroy_removals (stack : List κ) :
    (cuesOf (stack.flatMap removal) k).count .destroy = stack.count k := by
  induction stack with
  | nil => rfl
  | cons top below ih =>
    rw [List.flatMap_cons, cuesOf_append, List.count_append, ih, cuesOf_removal, List.count_cons]
    by_cases h : top = k <;> simp [h, Nat.add_comm]

theorem cuesOf_removals (hone : stack.count k ≤ 1) :
    cuesOf (stack.flatMap removal) k = if k ∈ stack then [.exit, .destroy] else [] := by
  induction stack with
  | nil => rfl
  | cons top below ih =>
    rw [List.flatMap_cons, cuesOf_append, cuesOf_removal]
    by_cases h : top = k
    · subst h
      rw [List.count_cons_self] at hone
      have hnone : below.count top = 0 := by omega
      have hbelow : top ∉ below := List.count_eq_zero.1 hnone
      rw [ih (by omega)]
      simp [hbelow]
    · rw [List.count_cons_of_ne h] at hone
      rw [ih hone]
      simp [h, Ne.symm h]

theorem count_destroy_map {cue : SceneCue} (hcue : cue ≠ .destroy) (ks : List κ) :
    (cuesOf (ks.map fun x => Telling.mk cue x) k).count .destroy = 0 := by
  induction ks with
  | nil => rfl
  | cons x ks ih => by_cases h : x = k <;> simp [h, hcue, ih]

theorem count_tail (stack : List κ) :
    stack.count k = stack.head?.toList.count k + stack.tail.count k := by
  cases stack with
  | nil => rfl
  | cons top below => simp [List.count_cons, Nat.add_comm]

/-- A change removes as many scenes as there are less of them afterwards than there were before and
came anew. -/
theorem count_tells (hplain : c.plain? (stack, copied) = some (stack', [])) :
    (cuesOf (c.tells stack stack') k).count .destroy + stack'.count k =
      stack.count k + (c.scene?.toList ++ copied).count k := by
  have hcovered := count_destroy_map (k := k) (show SceneCue.exit ≠ .destroy by simp)
    stack.head?.toList
  have hremoved := count_destroy_removals (k := k) stack.head?.toList
  have hcleared := count_destroy_removals (k := k) stack
  have htail := count_tail (k := k) stack
  unfold tells farewells
  rw [cuesOf_append, List.count_append, count_destroy_map (by simp)]
  cases c with
  | push x =>
    cases hplain
    simp only [scene?, Option.toList_some, List.count_append, List.count_cons, List.count_nil]
    omega
  | pop =>
    cases hplain
    simp only [scene?, Option.toList_none, List.nil_append, List.count_nil]
    omega
  | switch x =>
    cases hplain
    simp only [scene?, Option.toList_some, List.count_append, List.count_cons, List.count_nil]
    omega
  | reload =>
    cases stack with
    | nil =>
      cases hplain
      rfl
    | cons top below =>
      obtain ⟨copy, rfl, rfl⟩ := plain?_reload hplain
      simp only [scene?, Option.toList_none, List.nil_append, List.tail_cons, List.count_cons,
        List.count_nil] at htail ⊢
      omega
  | clear =>
    cases hplain
    simp only [scene?, Option.toList_none, List.nil_append, List.count_nil]
    omega

/-- How a scene that is nowhere twice fares when a change turns a stack into another; `new` are the
scenes that come anew. -/
inductive Fares (c : SceneChange κ) (k : κ) (stack stack' new : List κ) : List SceneCue → Prop
  | away (hnew : k ∉ new) (hold : k ∉ stack) (hnow : k ∉ stack') : Fares c k stack stack' new []
  | arrives (hnew : k ∈ new) (hold : k ∉ stack) (hnow : stack'.head? = some k) :
      Fares c k stack stack' new [.enter]
  | covered (hold : stack.head? = some k) (hnow : k ∈ stack'.tail) :
      Fares c k stack stack' new [.exit]
  | remains (hold : k ∈ stack.tail) (hnow : k ∈ stack'.tail) : Fares c k stack stack' new []
  | rises (hold : k ∈ stack.tail) (hnow : stack'.head? = some k) :
      Fares c k stack stack' new [.enter]
  | leaves (hold : stack.head? = some k) (hnow : k ∉ stack') :
      Fares c k stack stack' new [.exit, .destroy]
  | swept (hclear : c = .clear) (hold : k ∈ stack.tail) (hnow : k ∉ stack') :
      Fares c k stack stack' new [.exit, .destroy]

omit [DecidableEq κ] in
theorem Fares.of_eq {new : List κ} {cues cues' : List SceneCue}
    (h : c.Fares k stack stack' new cues) (heq : cues' = cues) : c.Fares k stack stack' new cues' :=
  heq ▸ h

/-- A scene that is not on the stack stays away or comes to the top. -/
theorem fares_of_not_mem (hplain : c.plain? (stack, copied) = some (stack', [])) (hk : k ∉ stack) :
    c.Fares k stack stack' (c.scene?.toList ++ copied) (cuesOf (c.tells stack stack') k) := by
  have hfarewells : cuesOf (c.farewells stack) k = [] := by
    have hone : stack.count k ≤ 1 := by
      rw [List.count_eq_zero.2 hk]
      omega
    have hremovals := cuesOf_removals hone
    cases stack with
    | nil => cases c <;> rfl
    | cons top below =>
      have htop : top ≠ k := fun h => hk (h ▸ List.mem_cons_self)
      cases c with
      | clear => rw [farewells, hremovals, if_neg hk]
      | _ => simp [farewells, removal, htop]
  have hcomes (x : κ) (below : List κ) (hbelow : k ∉ below) :
      c.Fares k stack (x :: below) [x] (if x = k then [.enter] else []) := by
    split
    · next h => exact .arrives (by simp [h]) hk (by simp [h])
    · next h => exact .away (by simp [Ne.symm h]) hk (by simp [Ne.symm h, hbelow])
  have htail : k ∉ stack.tail := fun h => hk (List.mem_of_mem_tail h)
  unfold tells
  rw [cuesOf_append, hfarewells, cuesOf_arrivals, List.nil_append]
  cases c with
  | push x =>
    cases hplain
    simpa [scene?] using hcomes x stack hk
  | pop =>
    cases hplain
    have hhead : stack.tail.head? ≠ some k := fun h => htail (List.mem_of_mem_head? h)
    rw [if_neg hhead]
    exact .away (by simp [scene?]) hk htail
  | switch x =>
    cases hplain
    simpa [scene?] using hcomes x stack.tail htail
  | reload =>
    cases stack with
    | nil =>
      cases hplain
      exact .away (by simp [scene?]) hk hk
    | cons top below =>
      obtain ⟨copy, rfl, rfl⟩ := plain?_reload hplain
      simpa [scene?] using hcomes copy below htail
  | clear =>
    cases hplain
    exact .away (by simp [scene?]) hk List.not_mem_nil

/-- A scene on top is covered or leaves. -/
theorem fares_of_top {below : List κ} (hplain : c.plain? (k :: below, copied) = some (stack', []))
    (hbelow : k ∉ below) (hnew : k ∉ c.scene?.toList ++ copied) :
    c.Fares k (k :: below) stack' (c.scene?.toList ++ copied)
      (cuesOf (c.tells (k :: below) stack') k) := by
  have hreplaced {x : κ} (hx : x ≠ k) : k ∉ x :: below := by simp [Ne.symm hx, hbelow]
  unfold tells
  rw [cuesOf_append, cuesOf_arrivals]
  cases c with
  | push x =>
    cases hplain
    have hx : x ≠ k := ne_of_mem_of_not_mem List.mem_cons_self hnew
    exact (Fares.covered rfl List.mem_cons_self).of_eq (by simp [farewells, hx])
  | pop =>
    cases hplain
    have hhead : below.head? ≠ some k := fun h => hbelow (List.mem_of_mem_head? h)
    exact (Fares.leaves rfl hbelow).of_eq (by simp [farewells, removal, hhead])
  | switch x =>
    cases hplain
    have hx : x ≠ k := ne_of_mem_of_not_mem List.mem_cons_self hnew
    exact (Fares.leaves rfl (hreplaced hx)).of_eq (by simp [farewells, removal, hx])
  | reload =>
    obtain ⟨copy, rfl, rfl⟩ := plain?_reload hplain
    have hx : copy ≠ k := ne_of_mem_of_not_mem List.mem_cons_self hnew
    exact (Fares.leaves rfl (hreplaced hx)).of_eq (by simp [farewells, removal, hx])
  | clear =>
    cases hplain
    have hone : (k :: below).count k ≤ 1 := by
      have hnone := List.count_eq_zero.2 hbelow
      rw [List.count_cons_self]
      omega
    have hcues := cuesOf_removals hone
    exact (Fares.leaves rfl List.not_mem_nil).of_eq (by simpa [farewells] using hcues)

/-- A scene below the top rises if the top is removed; it is swept if all are; else it remains. -/
theorem fares_of_mem_below {top : κ} {below : List κ}
    (hplain : c.plain? (top :: below, copied) = some (stack', [])) (htop : top ≠ k)
    (hbelow : k ∈ below) (hone : below.count k ≤ 1) (hnew : k ∉ c.scene?.toList ++ copied) :
    c.Fares k (top :: below) stack' (c.scene?.toList ++ copied)
      (cuesOf (c.tells (top :: below) stack') k) := by
  unfold tells
  rw [cuesOf_append, cuesOf_arrivals]
  cases c with
  | push x =>
    cases hplain
    have hx : x ≠ k := ne_of_mem_of_not_mem List.mem_cons_self hnew
    exact (Fares.remains hbelow (List.mem_cons_of_mem top hbelow)).of_eq
      (by simp [farewells, htop, hx])
  | pop =>
    cases hplain
    cases below with
    | nil => cases hbelow
    | cons next rest =>
      by_cases hnext : next = k
      · exact (Fares.rises hbelow (by simp [hnext])).of_eq
          (by simp [farewells, removal, htop, hnext])
      · have hrest : k ∈ rest := (List.mem_cons.1 hbelow).resolve_left (Ne.symm hnext)
        exact (Fares.remains hbelow hrest).of_eq (by simp [farewells, removal, htop, hnext])
  | switch x =>
    cases hplain
    have hx : x ≠ k := ne_of_mem_of_not_mem List.mem_cons_self hnew
    exact (Fares.remains hbelow hbelow).of_eq (by simp [farewells, removal, htop, hx])
  | reload =>
    obtain ⟨copy, rfl, rfl⟩ := plain?_reload hplain
    have hx : copy ≠ k := ne_of_mem_of_not_mem List.mem_cons_self hnew
    exact (Fares.remains hbelow hbelow).of_eq (by simp [farewells, removal, htop, hx])
  | clear =>
    cases hplain
    rw [← List.count_cons_of_ne htop] at hone
    have hcues := cuesOf_removals hone
    rw [if_pos (List.mem_cons_of_mem top hbelow)] at hcues
    exact (Fares.swept rfl hbelow List.not_mem_nil).of_eq (by simpa [farewells] using hcues)

theorem fares (hplain : c.plain? (stack, copied) = some (stack', []))
    (hone : stack.count k + (c.scene?.toList ++ copied).count k ≤ 1) :
    c.Fares k stack stack' (c.scene?.toList ++ copied) (cuesOf (c.tells stack stack') k) := by
  by_cases hk : k ∈ stack
  · have hpos : 0 < stack.count k := List.count_pos_iff.2 hk
    have hnew : k ∉ c.scene?.toList ++ copied := List.count_eq_zero.1 (by omega)
    cases stack with
    | nil => cases hk
    | cons top below =>
      by_cases htop : top = k
      · subst htop
        rw [List.count_cons_self] at hone
        exact fares_of_top hplain (List.count_eq_zero.1 (by omega)) hnew
      · rw [List.count_cons_of_ne htop] at hone
        have hbelow : k ∈ below := (List.mem_cons.1 hk).resolve_left (Ne.symm htop)
        exact fares_of_mem_below hplain htop hbelow (by omega) hnew
  · exact fares_of_not_mem hplain hk

/-- The scenes that were put on the stack are among those that are asked for. -/
theorem count_handed_le (made rest : List (SceneChange κ)) (copies : List κ) (k : κ) :
    (handed made copies).count k ≤ (handed (made ++ rest) copies).count k := by
  unfold handed
  rw [List.filterMap_append, List.append_assoc, List.count_append, List.count_append,
    List.count_append]
  omega

end SceneChange
/-- Where a scene stands. -/
inductive SceneStanding where
  | unborn
  | onTop
  | covered
  | gone
  /-- It was removed while another scene was on top. -/
  | swept
  deriving DecidableEq, Repr

/-- What a scene is told until it stands somewhere. -/
inductive SceneLife : SceneStanding → List SceneCue → Prop
  | unborn : SceneLife .unborn []
  | arrives {l : List SceneCue} (h : SceneLife .unborn l) : SceneLife .onTop (l ++ [.enter])
  | rises {l : List SceneCue} (h : SceneLife .covered l) : SceneLife .onTop (l ++ [.enter])
  | covered {l : List SceneCue} (h : SceneLife .onTop l) : SceneLife .covered (l ++ [.exit])
  | leaves {l : List SceneCue} (h : SceneLife .onTop l) : SceneLife .gone (l ++ [.exit, .destroy])
  | swept {l : List SceneCue} (h : SceneLife .covered l) : SceneLife .swept (l ++ [.exit, .destroy])
  /-- It is told something else as long as it is there. -/
  | told {st : SceneStanding} {l : List SceneCue} {cue : SceneCue} (h : SceneLife st l)
      (hst : st = .onTop ∨ st = .covered) (hcue : cue.comesOrGoes = false) :
      SceneLife st (l ++ [cue])

/-- Whether a scene was there and is no more. -/
def SceneStanding.isOver : SceneStanding → Bool
  | .gone | .swept => true
  | .unborn | .onTop | .covered => false

/-- The end comes once, and only then it is over. -/
theorem SceneLife.count_destroy {st : SceneStanding} {l : List SceneCue} (h : SceneLife st l) :
    l.count .destroy = if st.isOver then 1 else 0 := by
  induction h with
  | unborn => rfl
  | arrives _ ih | rises _ ih | covered _ ih | leaves _ ih | swept _ ih =>
    simp [List.count_append, ih, SceneStanding.isOver]
  | @told st l cue _ _ hcue ih =>
    have hne : cue ≠ .destroy := by rintro rfl; cases hcue
    rw [List.count_append, ih, List.count_singleton]
    simp [hne]

theorem SceneLife.getLast? {st : SceneStanding} {l : List SceneCue} (h : SceneLife st l)
    (hover : st.isOver = true) : l.getLast? = some .destroy := by
  cases h with
  | leaves | swept => simp
  | unborn | arrives | rises | covered => cases hover
  | told _ hst => rcases hst with rfl | rfl <;> cases hover

namespace SceneAccount
variable {a : SceneAccount κ}

/-- The scenes that were put on the stack. -/
def handed (a : SceneAccount κ) : List κ := SceneChange.handed a.made a.copies

/-- The scenes that were removed while another was on top. -/
def swept (a : SceneAccount κ) : List κ := SceneChange.swept a.made ([], a.copies)

/-- The stack is what the changes make of a plain list, and the copies are those that it takes. -/
theorem Played.plainly (ha : a.Played) :
    SceneChange.plainly a.made a.copies = some (a.stack, []) := by
  unfold SceneChange.plainly
  induction ha with
  | opening => rfl
  | @change a c stack copied _ hplain ih =>
    have hmore := SceneChange.foldlM_plain?_more ih copied
    change (a.made ++ [c]).foldlM _ ([], a.copies ++ copied) = some (stack, [])
    rw [List.foldlM_append]
    refine Option.bind_eq_some_iff.2 ⟨_, hmore, ?_⟩
    exact Option.bind_eq_some_iff.2 ⟨_, hplain, rfl⟩
  | tell _ _ _ ih => exact ih

theorem Played.swept_change {c : SceneChange κ} (ha : a.Played) (stack copied : List κ) :
    (a.change c stack copied).swept = a.swept ++ c.sweeps a.stack := by
  have hplainly := ha.plainly
  have hmore := SceneChange.foldlM_plain?_more hplainly copied
  exact (SceneChange.swept_snoc hmore c).trans
    (congrArg (· ++ c.sweeps a.stack) (SceneChange.swept_more hplainly copied))

variable [DecidableEq κ] {k : κ}

theorem cuesOf_change (c : SceneChange κ) (stack copied : List κ) :
    cuesOf (a.change c stack copied).told k =
      cuesOf a.told k ++ cuesOf (c.tells a.stack stack) k := cuesOf_append _ _

theorem cuesOf_tell (cue : SceneCue) (k' : κ) :
    cuesOf (a.tell [⟨cue, k'⟩]).told k = cuesOf a.told k ++ if k' = k then [cue] else [] := by
  unfold tell
  rw [cuesOf_append, cuesOf_cons, cuesOf_nil]

theorem count_handed_change (c : SceneChange κ) (stack copied : List κ) :
    (a.change c stack copied).handed.count k =
      a.handed.count k + (c.scene?.toList ++ copied).count k := by
  have hmade : (a.made ++ [c]).filterMap SceneChange.scene? =
      a.made.filterMap SceneChange.scene? ++ c.scene?.toList := by
    rw [List.filterMap_append]
    cases c <;> rfl
  unfold handed SceneChange.handed change
  simp only [hmade, List.count_append]
  omega

/-- As often as a scene was put on the stack, so often it is there or was removed for good. -/
theorem Played.count_destroy (ha : a.Played) :
    (cuesOf a.told k).count .destroy + a.stack.count k = a.handed.count k := by
  induction ha with
  | opening => rfl
  | @change a c stack copied _ hplain ih =>
    have htells := SceneChange.count_tells (k := k) hplain
    rw [count_handed_change, cuesOf_change, List.count_append]
    change _ + stack.count k = _
    omega
  | @tell a cue k' _ hcue _ ih =>
    have hne : cue ≠ .destroy := by rintro rfl; cases hcue
    rw [cuesOf_tell, List.count_append]
    split
    · rw [List.count_singleton, beq_false_of_ne hne]
      exact ih
    · exact ih

/-- Who was removed while another was on top was removed for good. -/
theorem Played.destroyed_of_swept (ha : a.Played) (hk : k ∈ a.swept) :
    0 < (cuesOf a.told k).count .destroy := by
  induction ha with
  | opening => cases hk
  | @change a c stack copied ha hplain ih =>
    rw [ha.swept_change] at hk
    rw [cuesOf_change, List.count_append]
    rcases List.mem_append.1 hk with hbefore | hnow
    · exact Nat.add_pos_left (ih hbefore) _
    · obtain ⟨rfl, htail⟩ := SceneChange.mem_sweeps.1 hnow
      have htells := SceneChange.count_tells (k := k) hplain
      have hpos : 0 < a.stack.count k := List.count_pos_iff.2 (List.mem_of_mem_tail htail)
      cases hplain
      rw [List.count_nil] at htells
      omega
  | @tell a cue k' _ _ _ ih =>
    rw [cuesOf_tell, List.count_append]
    exact Nat.add_pos_left (ih hk) _

/-- Where a scene stands. -/
def standing (a : SceneAccount κ) (k : κ) : SceneStanding :=
  if a.stack.head? = some k then .onTop
  else if k ∈ a.stack then .covered
  else if k ∈ a.swept then .swept
  else if k ∈ a.handed then .gone
  else .unborn

theorem standing_onTop (h : a.stack.head? = some k) : a.standing k = .onTop := if_pos h

theorem standing_covered (hone : a.stack.count k ≤ 1) (h : k ∈ a.stack.tail) :
    a.standing k = .covered := by
  have hhead : a.stack.head? ≠ some k := by
    intro hhead
    have hpos : 0 < a.stack.tail.count k := List.count_pos_iff.2 h
    rw [SceneChange.count_tail, hhead, Option.toList_some, List.count_singleton_self] at hone
    omega
  unfold standing
  rw [if_neg hhead, if_pos (List.mem_of_mem_tail h)]

theorem standing_away (h : k ∉ a.stack) :
    a.standing k = if k ∈ a.swept then .swept else if k ∈ a.handed then .gone else .unborn := by
  have hhead : a.stack.head? ≠ some k := fun hhead => h (List.mem_of_mem_head? hhead)
  unfold standing
  rw [if_neg hhead, if_neg h]

theorem standing_here (h : k ∈ a.stack) : a.standing k = .onTop ∨ a.standing k = .covered := by
  by_cases htop : a.stack.head? = some k
  · exact .inl (standing_onTop htop)
  · right
    unfold standing
    rw [if_neg htop, if_pos h]

omit [DecidableEq κ] in
theorem Played.mem_swept_change {c : SceneChange κ} (ha : a.Played) (stack copied : List κ) :
    k ∈ (a.change c stack copied).swept ↔ k ∈ a.swept ∨ c = .clear ∧ k ∈ a.stack.tail := by
  rw [ha.swept_change, List.mem_append, SceneChange.mem_sweeps]

theorem Played.not_mem_of_swept (ha : a.Played) (hone : a.handed.count k ≤ 1)
    (hk : k ∈ a.swept) : k ∉ a.stack := by
  have hdestroyed := ha.destroyed_of_swept hk
  have hcount := ha.count_destroy (k := k)
  exact List.count_eq_zero.1 (by omega)

theorem Played.standing_unborn (ha : a.Played) (hk : k ∉ a.handed) : a.standing k = .unborn := by
  have hcount := ha.count_destroy (k := k)
  rw [List.count_eq_zero.2 hk] at hcount
  have hstack : k ∉ a.stack := List.count_eq_zero.1 (by omega)
  have hswept : k ∉ a.swept := by
    intro h
    have hdestroyed := ha.destroyed_of_swept h
    omega
  rw [standing_away hstack, if_neg hswept, if_neg hk]

/-- Who leaves from the top was not removed while another was on top. -/
theorem Played.standing_gone {c : SceneChange κ} {stack copied : List κ} (ha : a.Played)
    (hone : a.handed.count k ≤ 1) (htop : a.stack.head? = some k) (hk : k ∉ stack) :
    (a.change c stack copied).standing k = .gone := by
  have hmem : k ∈ a.stack := List.mem_of_mem_head? htop
  have hpos : 0 < a.stack.count k := List.count_pos_iff.2 hmem
  have hcount := ha.count_destroy (k := k)
  have hhanded := count_handed_change (a := a) (k := k) c stack copied
  have hhere : k ∈ (a.change c stack copied).handed := List.count_pos_iff.1 (by omega)
  have hkept : k ∉ (a.change c stack copied).swept := by
    rw [ha.mem_swept_change]
    rintro (h | ⟨-, htail⟩)
    · exact ha.not_mem_of_swept hone h hmem
    · have hcovered := standing_covered (by omega) htail
      rw [standing_onTop htop] at hcovered
      cases hcovered
  rw [standing_away hk, if_neg hkept, if_pos hhere]

/-- A scene that is put on the stack once at most is told what belongs to where it stands. -/
theorem Played.life (ha : a.Played) (hone : a.handed.count k ≤ 1) :
    SceneLife (a.standing k) (cuesOf a.told k) := by
  induction ha with
  | opening => exact .unborn
  | @change a c stack copied ha hplain ih =>
    have hcount := ha.count_destroy (k := k)
    have hcount' := (ha.change hplain).count_destroy (k := k)
    have hhanded := count_handed_change (a := a) (k := k) c stack copied
    have hlife := ih (by omega)
    have hfares := SceneChange.fares (k := k) hplain (by omega)
    have hone' : (a.change c stack copied).stack.count k ≤ 1 := by omega
    rw [cuesOf_change]
    generalize cuesOf (c.tells a.stack stack) k = heard at hfares
    cases hfares with
    | away hnew hold hnow =>
      rw [List.count_eq_zero.2 hnew] at hhanded
      have htail : k ∉ a.stack.tail := fun h => hold (List.mem_of_mem_tail h)
      have hhanded' : k ∈ (a.change c stack copied).handed ↔ k ∈ a.handed := by
        rw [← List.count_pos_iff, ← List.count_pos_iff, hhanded, Nat.add_zero]
      rw [standing_away hold] at hlife
      rw [standing_away hnow, List.append_nil]
      simpa only [ha.mem_swept_change, hhanded', htail, and_false, or_false] using hlife
    | arrives hnew hold hnow =>
      have hpos : 0 < (c.scene?.toList ++ copied).count k := List.count_pos_iff.2 hnew
      have hnever : k ∉ a.handed := List.count_eq_zero.1 (by omega)
      rw [ha.standing_unborn hnever] at hlife
      rw [standing_onTop hnow]
      exact hlife.arrives
    | covered hold hnow =>
      rw [standing_onTop hold] at hlife
      rw [standing_covered hone' hnow]
      exact hlife.covered
    | remains hold hnow =>
      rw [standing_covered (by omega) hold] at hlife
      rw [standing_covered hone' hnow, List.append_nil]
      exact hlife
    | rises hold hnow =>
      rw [standing_covered (by omega) hold] at hlife
      rw [standing_onTop hnow]
      exact hlife.rises
    | leaves hold hnow =>
      rw [standing_onTop hold] at hlife
      rw [ha.standing_gone (by omega) hold hnow]
      exact hlife.leaves
    | swept hclear hold hnow =>
      have hswept := (ha.mem_swept_change stack copied).2 (.inr ⟨hclear, hold⟩)
      rw [standing_covered (by omega) hold] at hlife
      rw [standing_away hnow, if_pos hswept]
      exact hlife.swept
  | @tell a cue k' ha hcue hk' ih =>
    have hlife : SceneLife ((a.tell [⟨cue, k'⟩]).standing k) (cuesOf a.told k) := ih hone
    rw [cuesOf_tell]
    split
    · next h =>
      subst h
      exact hlife.told (standing_here hk') hcue
    · rw [List.append_nil]
      exact hlife

/-- Where it stands tells whether it was removed while another was on top. -/
theorem Played.standing_swept_iff (ha : a.Played) (hone : a.handed.count k ≤ 1) :
    a.standing k = .swept ↔ k ∈ a.swept := by
  constructor
  · intro h
    refine Classical.byContradiction fun hk => ?_
    by_cases hstack : k ∈ a.stack
    · rcases standing_here hstack with hhere | hhere <;> rw [hhere] at h <;> cases h
    · rw [standing_away hstack, if_neg hk] at h
      split at h <;> cases h
  · intro hk
    rw [standing_away (ha.not_mem_of_swept hone hk), if_pos hk]

end SceneAccount
end VisualNovel
