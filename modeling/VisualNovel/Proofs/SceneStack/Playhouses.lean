import VisualNovel.Proofs.SceneStack.Accounts
/-!
# Playhouses whose scenes only ask

Scripted scenes that give no other orders than to change the stack are those of a lawful theatre
(`theatre_lawful`), and whatever orders are given to their playhouse from outside, what it comes to
is reached (`isReached_foldl`).
-/
namespace VisualNovel

/-- Whether an order asks for a change. -/
def SceneOrder.isAsk : SceneOrder → Bool
  | .ask _ => true
  | .update _ | .render _ | .handle _ | .resize _ _ => false

namespace Playhouse

/-- The scenes of every class only ask for changes. -/
def AsksOnly (p : Playhouse) : Prop :=
  ∀ named ∈ p.classes, ∀ told ∈ named.2.requests, ∀ r ∈ told.2, r.order.isAsk = true

instance (p : Playhouse) : Decidable p.AsksOnly := inferInstanceAs (Decidable (∀ _ ∈ _, _))

theorem mem_of_lookup {κ α : Type} [DecidableEq κ] {m : List (κ × α)} {key : κ} {value : α}
    (h : m.lookup key = some value) : (key, value) ∈ m := by
  obtain ⟨front, back, rfl, -⟩ := List.lookup_eq_some_iff.1 h
  exact List.mem_append_right _ List.mem_cons_self

theorem AsksOnly.requests {p : Playhouse} (h : p.AsksOnly) (k : SceneTag) (cue : SceneCue) :
    ∀ r ∈ ((p.classOf k).requests.lookup cue).getD [], r.order.isAsk = true := by
  intro r hr
  unfold classOf at hr
  cases hclass : p.classes.lookup k.name with
  | none =>
    rw [hclass] at hr
    cases hr
  | some c =>
    rw [hclass, Option.getD_some] at hr
    cases hrequests : c.requests.lookup cue with
    | none =>
      rw [hrequests] at hr
      cases hr
    | some rs =>
      rw [hrequests, Option.getD_some] at hr
      exact h _ (mem_of_lookup hclass) _ (mem_of_lookup hrequests) r hr

/-- From one playhouse to the next changes are asked for, and what else is done concerns neither the
stack nor the classes. -/
structure Passes (p p' : Playhouse) : Prop where
  classes : p'.classes = p.classes
  scenes : ∃ cs, p'.scenes = { p.scenes with pending := p.scenes.pending ++ cs }

theorem Passes.of_eq {p p' : Playhouse} (hclasses : p'.classes = p.classes)
    (hscenes : p'.scenes = p.scenes) : p.Passes p' := ⟨hclasses, [], by simp [hscenes]⟩

theorem Passes.refl (p : Playhouse) : p.Passes p := .of_eq rfl rfl

theorem Passes.trans {p₁ p₂ p₃ : Playhouse} (h : p₁.Passes p₂) (h' : p₂.Passes p₃) :
    p₁.Passes p₃ := by
  obtain ⟨hclasses, cs, hcs⟩ := h
  obtain ⟨hclasses', cs', hcs'⟩ := h'
  refine ⟨hclasses'.trans hclasses, cs ++ cs', ?_⟩
  rw [hcs', hcs, List.append_assoc]

theorem make_passes (name : String) (p : Playhouse) : p.Passes (p.make name).1 := .of_eq rfl rfl

theorem named_passes (name : String) (p : Playhouse) : p.Passes (p.named name).1 := by
  unfold named
  split
  · exact make_passes name p
  · split
    · exact .refl p
    · exact .of_eq rfl rfl

theorem ask_passes (c : SceneChange String) (p : Playhouse) : p.Passes (p.ask c) := by
  have hask (p : Playhouse) (c : SceneChange SceneTag) :
      p.Passes { p with scenes := p.scenes.ask c } := ⟨rfl, [c], rfl⟩
  cases c with
  | push name | switch name => exact (named_passes name p).trans (hask _ _)
  | pop | reload | clear => exact hask p _

variable {p : Playhouse} {depth : Nat}

theorem carryOut_passes {o : SceneOrder} (ho : o.isAsk = true) :
    p.Passes (carryOut (depth + 1) o p) := by
  cases o with
  | ask c =>
    unfold carryOut
    dsimp only
    split
    · exact .refl p
    · exact ask_passes c p
  | update | render | handle | resize => cases ho

theorem orderAll_passes {name : String} {cue : SceneCue} {rs : List SceneRequest}
    (hrs : ∀ r ∈ rs, r.order.isAsk = true) (index : Nat) :
    p.Passes (orderAll (carryOut (depth + 1)) name cue index rs p) := by
  induction rs generalizing index p with
  | nil => exact .refl p
  | cons r rs ih =>
    have hrest (p : Playhouse) := ih (p := p) (fun r hr => hrs r (List.mem_cons_of_mem _ hr))
      (index + 1)
    unfold orderAll
    dsimp only
    split
    · refine Passes.trans ?_ (hrest _)
      refine Passes.trans ?_ (carryOut_passes (hrs r List.mem_cons_self))
      exact .of_eq rfl rfl
    · exact hrest p

theorem tell_passes (h : p.AsksOnly) (cue : SceneCue) (m : SceneMark) (k : SceneTag) :
    p.Passes (p.tell (carryOut (depth + 1)) cue m k) := by
  have hleave : p.Passes (p.leave m) := .of_eq rfl rfl
  exact hleave.trans (orderAll_passes (h.requests k cue) 0)

theorem Passes.asks {p' : Playhouse} (h : p.Passes p') (hp : p.AsksOnly) (carry : Carrier) :
    (theatre carry).Asks AsksOnly p p' := by
  refine ⟨?_, h.scenes⟩
  unfold AsksOnly
  rw [h.classes]
  exact hp

/-- Scenes that only ask for changes are those of a lawful theatre. -/
theorem theatre_lawful (depth : Nat) : (theatre (carryOut (depth + 1))).Lawful AsksOnly where
  scenes_withScenes _ _ := rfl
  withScenes _ _ h := h
  enter k _ h := (tell_passes h _ _ k).asks h _
  exit k _ h := (tell_passes h _ _ k).asks h _
  destroy k _ h := (tell_passes h _ _ k).asks h _
  recreate k p h := (make_passes k.name p).asks h _
  publish topic k p h := by
    have hleave : p.Passes ((theatre (carryOut (depth + 1))).publish topic k p) := by
      unfold theatre
      dsimp only
      split
      · exact .of_eq rfl rfl
      · exact .refl p
    exact hleave.asks h _

/-! ## Runs -/

/-- A theatre has reached a playhouse. -/
def IsReached (depth : Nat) (p : Playhouse) : Prop :=
  ∃ r, (theatre (carryOut (depth + 1))).Reached AsksOnly (p, r)

theorem IsReached.of_fst {w : Playhouse × SceneRecord SceneTag}
    (hw : (theatre (carryOut (depth + 1))).Reached AsksOnly w) (hp : w.1 = p) : IsReached depth p :=
  ⟨w.2, hp ▸ hw⟩

-- The next two are stated of functions as a whole: of one playhouse, to see that both sides are the
-- same by computation would mean to make its changes.

theorem update_eq : update = fun carry dt p =>
    ((theatre carry).update (fun k p => (p.tell carry .update (.updated k dt) k, none)) p).1 := rfl

theorem render_eq : render = fun carry alpha p =>
    ((theatre carry).render (fun k p => (p.tell carry .render (.rendered k alpha) k, none)) p).1 :=
  rfl

theorem carryOut_update (dt : Json) : carryOut (depth + 2) (.update dt) p =
    ((theatre (carryOut (depth + 1))).update
      (fun k p => (p.tell (carryOut (depth + 1)) .update (.updated k dt) k, none)) p).1 := by
  rw [carryOut, update_eq]

theorem carryOut_render (alpha : Json) : carryOut (depth + 2) (.render alpha) p =
    ((theatre (carryOut (depth + 1))).render
      (fun k p => (p.tell (carryOut (depth + 1)) .render (.rendered k alpha) k, none)) p).1 := by
  rw [carryOut, render_eq]

theorem carryOut_handle (kind : Json) : carryOut (depth + 2) (.handle kind) p =
    (theatre (carryOut (depth + 1))).onTop
      (fun k => tell (carryOut (depth + 1)) .handle (.handled k kind) k) p := by
  rw [carryOut, handle]

theorem carryOut_resize (width height : Json) : carryOut (depth + 2) (.resize width height) p =
    (theatre (carryOut (depth + 1))).onEach
      (fun k => tell (carryOut (depth + 1)) .resize (.resized k width height) k) p := by
  rw [carryOut, resize]

/-- Orders of every kind lead on to playhouses that are reached. -/
theorem IsReached.carryOut (hp : IsReached depth p) (o : SceneOrder) :
    IsReached depth (carryOut (depth + 2) o p) := by
  obtain ⟨r, hw⟩ := hp
  have htell (cue : SceneCue) (m : SceneTag → SceneMark) (k : SceneTag) (p : Playhouse)
      (hp : p.AsksOnly) : (theatre (Playhouse.carryOut (depth + 1))).Asks AsksOnly p
        (p.tell (Playhouse.carryOut (depth + 1)) cue (m k) k) := (tell_passes hp _ _ k).asks hp _
  cases o with
  | ask c =>
    have hcalm := (hw.plays (theatre_lawful depth)).isCalm
    have hpasses : p.Passes (Playhouse.carryOut (depth + 2) (.ask c) p) := carryOut_passes rfl
    exact .of_fst (hw.outside (hpasses.asks hcalm _)) rfl
  | update dt =>
    have hupdate := Theatre.recorded_update (theatre (Playhouse.carryOut (depth + 1))) (p, r)
      fun k p => (p.tell (Playhouse.carryOut (depth + 1)) .update (.updated k dt) k, none)
    rw [carryOut_update, ← hupdate]
    exact .of_fst (hw.update (htell .update (.updated · dt))) (Theatre.alone_fst _).symm
  | render alpha =>
    have hrender := Theatre.recorded_render (theatre (Playhouse.carryOut (depth + 1))) (p, r)
      fun k p => (p.tell (Playhouse.carryOut (depth + 1)) .render (.rendered k alpha) k, none)
    rw [carryOut_render, ← hrender]
    exact .of_fst (hw.render (htell .render (.rendered · alpha))) (Theatre.alone_fst _).symm
  | handle kind =>
    have honTop := Theatre.recorded_onTop (theatre (Playhouse.carryOut (depth + 1))) (p, r) .handle
      fun k p => p.tell (Playhouse.carryOut (depth + 1)) .handle (.handled k kind) k
    rw [carryOut_handle, ← honTop]
    exact .of_fst (hw.handle (htell .handle (.handled · kind))) rfl
  | resize width height =>
    have honEach := Theatre.recorded_onEach (theatre (Playhouse.carryOut (depth + 1))) (p, r)
      .resize fun k p => p.tell (Playhouse.carryOut (depth + 1)) .resize (.resized k width height) k
    rw [carryOut_resize, ← honEach]
    exact .of_fst (hw.resize (htell .resize (.resized · width height))) rfl

/-- Whatever orders are given to a playhouse without scenes to begin with, what it comes to is
reached. -/
theorem isReached_foldl (hp : p.AsksOnly) (hscenes : p.scenes = {}) (orders : List SceneOrder) :
    IsReached depth (orders.foldl (fun p o => carryOut (depth + 2) o p) p) := by
  have hopening : IsReached depth p := ⟨{}, .opening hp hscenes⟩
  clear hp hscenes
  induction orders generalizing p with
  | nil => exact hopening
  | cons o orders ih => exact ih (hopening.carryOut o)

/-- Orders are given to a playhouse, and then its scenes are updated; all is written down. -/
def pass (orders : List SceneOrder) (w : Playhouse × SceneRecord SceneTag) :
    Attempt (Playhouse × SceneRecord SceneTag) Empty :=
  let t := theatre (carryOut 1)
  t.recorded.update (t.telling .update fun k p =>
    (p.tell (carryOut 1) .update (.updated k (.int 1)) k, none))
    (orders.foldl (fun w o => t.noted [] w (carryOut 1 o w.1)) w)

theorem reached_pass {orders : List SceneOrder} {w : Playhouse × SceneRecord SceneTag}
    (hw : (theatre (carryOut 1)).Reached AsksOnly w)
    (horders : ∀ o ∈ orders, o.isAsk = true) :
    (theatre (carryOut 1)).Reached AsksOnly (pass orders w).1 := by
  have horder : (theatre (carryOut 1)).Reached AsksOnly
      (orders.foldl (fun w o => (theatre (carryOut 1)).noted [] w (carryOut 1 o w.1)) w) := by
    induction orders generalizing w with
    | nil => exact hw
    | cons o orders ih =>
      have hcalm := (hw.plays (theatre_lawful 0)).isCalm
      have hpasses : w.1.Passes (carryOut 1 o w.1) := carryOut_passes (horders o List.mem_cons_self)
      exact ih (hw.outside (hpasses.asks hcalm _)) fun o ho =>
        horders o (List.mem_cons_of_mem _ ho)
  have htell (k : SceneTag) (p : Playhouse) (hp : p.AsksOnly) :
      p.Passes (p.tell (carryOut 1) .update (.updated k (.int 1)) k) := tell_passes hp _ _ k
  exact horder.update fun k p hp => (htell k p hp).asks hp _

/-- A house of three scenes; whoever comes to the door asks for the cellar, once. -/
def cellarHouse : Playhouse where
  classes := [("Hall", {}), ("Door", { requests := [(.enter, [⟨.ask (.push "Cellar"), some 1⟩])] }),
    ("Cellar", {})]

end Playhouse
end VisualNovel
