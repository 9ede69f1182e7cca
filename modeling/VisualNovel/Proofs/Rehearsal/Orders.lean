import VisualNovel.Proofs.Dialogue.Updates
import VisualNovel.Proofs.Rehearsal.Stand
/-!
# Orders to a rehearsal

What the commands of a dialogue keep, the orders to a rehearsal keep, whoever gives them: the way in
which events are published is a parameter. An order that ends the dialogue tells its owner, who may
begin the next story in turn (`Owned`, `takeTurn_lands`).
-/
namespace VisualNovel

/-- The story that is begun, if what is given is one. -/
def Material.graph? : Material → Option Story.Graph
  | .content c => (Story.Graph.ofContent c).toOption
  | .script (.str text) =>
    (Story.compile text).result.toOption.bind fun g => (Story.Graph.ofContent g.toJson).toOption
  | .script _ => none

/-- What may be asked of a dialogue while it is running. -/
inductive Deed where
  | goOn
  | advance
  | choose
  | shutdown
  deriving DecidableEq, Repr

/-- The deed that an order asks for. -/
def Order.deed? : Order τ → Option Deed
  | .goOn => some .goOn
  | .advance => some .advance
  | .choose _ => some .choose
  | .shutdown => some .shutdown
  | .begin _ | .update _ _ | .act _ | .move _ => none

/-- Whether an order is a command to the dialogue or lets time pass. -/
def Order.isCommand : Order τ → Prop
  | .act _ | .move _ => False
  | _ => True

namespace Rehearsal
variable {τ : Type} {V : Venue τ (Stand τ)} {d : Rehearsal τ}

/-- What is asked of a venue with an owner: the owner is told of ends if it should be, and may begin
the stories that are left. -/
structure Owned (V : Venue τ (Stand τ)) : Prop where
  told : ∀ o, V.ok o → V.Keeps (fun p => { p with bows := p.bows + 1 }) o (o.leave .ended)
  bow : V.calm → ∀ o, V.ok o → V.course.bow = o.noticesEnd.toNat
  encore : ∀ o m rest, V.ok o → o.encores = m :: rest → V.Keeps id o { o with encores := rest }
  only : V.calm → ∀ o, V.ok o → o.encores ≠ [] → V.course.only = none

theorem sight_leave_ended (s : Stand τ) :
    (s.leave .ended).sight = { s.sight with bows := s.sight.bows + 1 } := by
  unfold Stand.sight Stand.leave Stand.published Stand.news Stand.bows Stand.ears Stand.screen
  simp [Stand.draw, Stand.news?, Stand.isBow]

/-- The venue of a rehearsal has an owner, if what is asked backstage allows for one. -/
theorem owned {n : Nat} {calm : Prop} {reading : τ → Prop} {K : Stand.Backstage τ → Prop}
    {c : Course} (hbow : calm → ∀ b, K b → c.bow = b.noticesEnd.toNat)
    (hencore : ∀ b m rest, K b → b.encores = m :: rest → K { b with encores := rest })
    (honly : calm → ∀ b, K b → b.encores ≠ [] → c.only = none) :
    Owned (Stand.venue n calm reading K c) where
  told o ho := ⟨⟨⟨ho.1.slots, ho.1.view, ho.1.listed, ho.1.leads⟩, ho.2⟩, sight_leave_ended o⟩
  bow hcalm o ho := hbow hcalm o.backstage ho.2
  encore o m rest ho hm :=
    ⟨⟨⟨ho.1.slots, ho.1.view, ho.1.listed, ho.1.leads⟩, hencore o.backstage m rest ho.2 hm⟩, rfl⟩
  only hcalm o ho hm := honly hcalm o.backstage ho.2 hm

/-- An answer that is no refusal of the story's. -/
def Answer.Fits (a : Answer) : Prop := ∀ e, a ≠ .failed (.play e)

/-! ## The end of a story -/

/-- When the owner has been told of it, the end of a dialogue is over. -/
theorem told_lands (hV : Owned V) {d' : Rehearsal τ} (h : V.Lands d d' .ended)
    (hn : d'.outside.noticesEnd = true) :
    V.Lands d (d'.withOutside (Stand.leave .ended)) .done := by
  have hk := hV.told d'.outside h.steady.ok
  have hsight : V.sight (d'.outside.leave .ended) = _ := hk.2
  refine ⟨h.steady.outside ⟨hk.1, by rw [hsight], by rw [hsight], by rw [hsight]⟩, h.follows,
    fun hcalm => ⟨?_, trivial⟩⟩
  obtain ⟨hcomp, hfits⟩ := h.calm hcalm
  have hoff : d'.session.active = false := hfits
  have htold : History V.course (V.sight d'.outside).news ((V.sight d'.outside).bows + V.course.bow)
    d'.story .away := hcomp.chronicle.told
  have hone : V.course.bow = 1 := by
    rw [hV.bow hcalm d'.outside h.steady.ok, hn]
    rfl
  rw [hone] at htold
  obtain ⟨hphase, hp, hfree⟩ := hcomp.resting hoff
  have hm : d'.session.moment = .away := by simp [Session.moment, hoff]
  refine .ofAway ?_ ?_ hoff hphase hp hfree
  · show History V.course (V.sight (d'.outside.leave .ended)).news
      (V.sight (d'.outside.leave .ended)).bows d'.story d'.session.moment
    rw [hsight, hm]
    exact htold
  · show (V.sight (d'.outside.leave .ended)).ears = 0
    rw [hsight]
    show (V.sight d'.outside).ears = 0
    rw [hcomp.ears, hoff]
    rfl

/-- An owner that is not told of it does not mind the end of a dialogue. -/
theorem untold_lands (hV : Owned V) {d' : Rehearsal τ} (h : V.Lands d d' .ended)
    (hn : d'.outside.noticesEnd = false) : V.Lands d d' .done := by
  refine ⟨h.steady, h.follows, fun hcalm => ⟨?_, trivial⟩⟩
  obtain ⟨hcomp, hfits⟩ := h.calm hcalm
  have hoff : d'.session.active = false := hfits
  have htold : History V.course (V.sight d'.outside).news ((V.sight d'.outside).bows + V.course.bow)
    d'.story .away := hcomp.chronicle.told
  have hzero : V.course.bow = 0 := by
    rw [hV.bow hcalm d'.outside h.steady.ok, hn]
    rfl
  rw [hzero, Nat.add_zero] at htold
  obtain ⟨hphase, hp, hfree⟩ := hcomp.resting hoff
  have hm : d'.session.moment = .away := by simp [Session.moment, hoff]
  refine .ofAway (show History V.course _ _ _ d'.session.moment from hm ▸ htold) ?_ hoff hphase hp
    hfree
  rw [hcomp.ears, hoff]
  rfl

variable [Clock τ] {w : Wiring τ (Stand τ)} {d' : Rehearsal τ} {t : Turn}

theorem beginStory_lands (hw : V.Suits w) (ha : V.Attends w) (m : Material) (h : V.Steady d)
    (hc : V.calm → V.Composed d d.session.moment)
    (honly : V.calm → d.session.active = false → V.course.only = none) :
    ∃ d' r, beginStory w m d = (d', r) ∧ V.Lands d d' (r.toOption.getD .done) := by
  unfold beginStory
  match m with
  | .content c =>
    obtain ⟨d', t, he, hl⟩ := Dialogue.begin_lands hw ha c h hc honly
    exact ⟨d', .ok t, by simp only [he], hl⟩
  | .script (.str text) =>
    obtain ⟨o, hreports, hk⟩ := hw.reportAll_eq (Story.compile text).log h.ok
    simp only [hreports]
    match (Story.compile text).result with
    | .error e => exact ⟨_, .error e, rfl, (Dialogue.stay h hc).outside hk⟩
    | .ok g' =>
      obtain ⟨d', t, he, hl⟩ := Dialogue.begin_lands hw ha g'.toJson (h.outside hk.sameView)
        (fun hcalm => (hc hcalm).outside hk) honly
      exact ⟨d', .ok t, by simp only [he], hl.after (.refl _)⟩
  | .script .null | .script (.bool _) | .script (.int _) | .script (.real _) | .script (.arr _)
  | .script (.obj _) =>
    exact ⟨d, .ok (.failed (.misfit .part)), rfl, h, .refl _, fun hcalm => ⟨hc hcalm, trivial⟩⟩

/-- A turn that is no end comes to nothing more. -/
theorem takeTurn_of_ne (hl : V.Lands d d' t) (ht : t ≠ .ended) (fuel : Nat) :
    V.Lands d (takeTurn w fuel (d', t)).1 .done ∧
      (V.calm → ∀ e, (takeTurn w fuel (d', t)).2 ≠ some (.play e)) := by
  cases t with
  | ended => exact absurd rfl ht
  | refused e =>
    cases fuel <;> exact ⟨⟨hl.steady, hl.follows, fun hcalm => ((hl.calm hcalm).2).elim⟩,
      fun hcalm => ((hl.calm hcalm).2).elim⟩
  | done | unreadable | failed =>
    cases fuel <;> exact ⟨⟨hl.steady, hl.follows, fun hcalm => ⟨(hl.calm hcalm).1, trivial⟩⟩,
      fun _ => nofun⟩

theorem takeTurn_untold (h : d.outside.noticesEnd = false) (fuel : Nat) :
    takeTurn w fuel (d, .ended) = (d, none) := by
  cases fuel <;> simp [takeTurn, h]

/-- An owner begins nothing when no story is left, or when it has begun enough of them. -/
theorem takeTurn_told (h : d.outside.noticesEnd = true) {fuel : Nat}
    (hend : fuel = 0 ∨ d.outside.encores = []) :
    takeTurn w fuel (d, .ended) = (d.withOutside (Stand.leave .ended), none) := by
  unfold takeTurn
  rcases hend with rfl | hnil
  · simp [h]
  · have hleft : (d.withOutside (Stand.leave .ended)).outside.encores = [] := hnil
    cases fuel <;> simp [h, hleft]

/-- An owner begins the next story that is left, and takes the turn that this leads to. -/
theorem takeTurn_encore {m : Material} {rest : List Material} {r : Except Story.ScriptError Turn}
    (h : d.outside.noticesEnd = true) (hm : d.outside.encores = m :: rest)
    (he : beginStory w m ((d.withOutside (Stand.leave .ended)).withOutside
      fun s => { s with encores := rest }) = (d', r)) (fuel : Nat) :
    takeTurn w (fuel + 1) (d, .ended) =
      match r with
      | .ok t => takeTurn w fuel (d', t)
      | .error e => (d', some (.script e)) := by
  have hleft : (d.withOutside (Stand.leave .ended)).outside.encores = m :: rest := hm
  rw [takeTurn]
  simp only [h, if_true, hleft, he]
  cases r <;> rfl

/-- The owner is told of the end of a story and may begin the next one, which may end at once. -/
theorem takeTurn_lands (hw : V.Suits w) (ha : V.Attends w) (hV : Owned V) (fuel : Nat)
    (h : V.Lands d d' t) :
    V.Lands d (takeTurn w fuel (d', t)).1 .done ∧
      (V.calm → ∀ e, (takeTurn w fuel (d', t)).2 ≠ some (.play e)) := by
  -- By induction on the stories that may still be begun: each of them may end as it begins.
  induction fuel generalizing d' t with
  | zero =>
    by_cases ht : t = .ended
    · subst ht
      cases hn : d'.outside.noticesEnd with
      | false =>
        rw [takeTurn_untold hn]
        exact ⟨untold_lands hV h hn, fun _ => nofun⟩
      | true =>
        rw [takeTurn_told hn (Or.inl rfl)]
        exact ⟨told_lands hV h hn, fun _ => nofun⟩
    · exact takeTurn_of_ne h ht 0
  | succ fuel ih =>
    by_cases ht : t = .ended
    · subst ht
      cases hn : d'.outside.noticesEnd with
      | false =>
        rw [takeTurn_untold hn]
        exact ⟨untold_lands hV h hn, fun _ => nofun⟩
      | true =>
        have htold := told_lands hV h hn
        match hm : d'.outside.encores with
        | [] =>
          rw [takeTurn_told hn (Or.inr hm)]
          exact ⟨htold, fun _ => nofun⟩
        | m :: rest =>
          have hm' : (d'.outside.leave .ended).encores = m :: rest := hm
          have hk := hV.encore _ m rest htold.steady.ok hm'
          obtain ⟨d'', r, he, hl⟩ := beginStory_lands hw ha m (htold.steady.outside hk.sameView)
            (fun hcalm => (htold.calm hcalm).1.outside hk) fun hcalm _ =>
              hV.only hcalm _ h.steady.ok (by rw [hm]; exact List.cons_ne_nil _ _)
          rw [takeTurn_encore hn hm he]
          have hl' : V.Lands d d'' (r.toOption.getD .done) := hl.after htold.follows
          cases r with
          | ok t => exact ih hl'
          | error e => exact ⟨hl', fun _ => nofun⟩
    · exact takeTurn_of_ne h ht _

/-- A command that is no end of the dialogue is followed by nothing. -/
theorem conclude_of_ne (w : Wiring τ (Stand τ)) {t : Turn} (ht : t ≠ .ended) (d : Rehearsal τ) :
    (conclude w (d, t)).1 = d := by
  unfold conclude settled
  cases t with
  | ended => exact absurd rfl ht
  | done | refused | unreadable | failed => cases d.outside.encores.length <;> rfl

theorem conclude_done (w : Wiring τ (Stand τ)) (d : Rehearsal τ) : (conclude w (d, .done)).1 = d :=
  conclude_of_ne w (t := .done) nofun d

theorem conclude_lands (hw : V.Suits w) (ha : V.Attends w) (hV : Owned V) (h : V.Lands d d' t) :
    V.Lands d (conclude w (d', t)).1 .done ∧ (V.calm → (conclude w (d', t)).2.Fits) := by
  obtain ⟨hl, hfits⟩ := takeTurn_lands hw ha hV d'.outside.encores.length h
  refine ⟨hl, fun hcalm e he => ?_⟩
  unfold conclude settled at he
  match hr : (takeTurn w d'.outside.encores.length (d', t)).2 with
  | none =>
    rw [show (takeTurn w (d', t).1.outside.encores.length (d', t)).2 = none from hr] at he
    cases he
  | some e' =>
    rw [show (takeTurn w (d', t).1.outside.encores.length (d', t)).2 = some e' from hr] at he
    cases he
    exact hfits hcalm e hr

/-! ## Orders -/

variable {interval : τ} {sound : Json} {publish : Publisher τ}

theorem deed_lands (hw : V.Suits (wiring interval sound publish))
    (ha : V.Attends (wiring interval sound publish)) (hV : Owned V) {o : Order τ} {deed : Deed}
    (ho : o.deed? = some deed) (h : V.Steady d) (hc : V.calm → V.Composed d d.session.moment) :
    V.Lands d (carryOut interval sound publish o d).1 .done ∧
      (V.calm → (carryOut interval sound publish o d).2.Fits) := by
  unfold carryOut
  cases o with
  | goOn =>
    obtain ⟨d', t, he, hl⟩ := Dialogue.continueStory_lands hw ha h fun hcalm => Or.inl (hc hcalm)
    simp only [he]
    exact conclude_lands hw ha hV hl
  | advance =>
    obtain ⟨d', t, he, hl⟩ := Dialogue.advance_lands hw ha h hc
    simp only [he]
    exact conclude_lands hw ha hV hl
  | choose index =>
    obtain ⟨d', t, he, hl⟩ := Dialogue.choose_lands hw ha index h hc
    simp only [he]
    exact conclude_lands hw ha hV hl
  | shutdown => exact ⟨Dialogue.shutdown_lands hw h hc, fun _ _ => nofun⟩
  | begin | update | act | move => cases ho

theorem begin_lands (hw : V.Suits (wiring interval sound publish))
    (ha : V.Attends (wiring interval sound publish)) (hV : Owned V) (m : Material)
    (h : V.Steady d) (hc : V.calm → V.Composed d d.session.moment)
    (honly : V.calm → d.session.active = false → V.course.only = none) :
    V.Lands d (carryOut interval sound publish (.begin m) d).1 .done ∧
      (V.calm → (carryOut interval sound publish (.begin m) d).2.Fits) := by
  obtain ⟨d', r, he, hl⟩ := beginStory_lands hw ha m h hc honly
  unfold carryOut
  simp only [he]
  cases r with
  | ok t => exact conclude_lands hw ha hV hl
  | error e => exact ⟨hl, fun _ _ => nofun⟩

/-- What an update keeps, a number of updates keeps. -/
theorem times_keeps {σ ε : Type} {f : σ → Attempt σ ε} {J : σ → Prop} {E : ε → Prop}
    (hf : ∀ s, J s → ∃ s' e?, f s = (s', e?) ∧ J s' ∧ ∀ e, e? = some e → E e) (times : Nat) {s : σ}
    (hs : J s) : ∃ s' e?, Attempt.times f times s = (s', e?) ∧ J s' ∧ ∀ e, e? = some e → E e := by
  induction times generalizing s with
  | zero => exact ⟨s, none, rfl, hs, nofun⟩
  | succ times ih =>
    obtain ⟨s', e?, he, hs', hE⟩ := hf s hs
    cases e? with
    | none =>
      obtain ⟨s'', e?, he', h⟩ := ih hs'
      exact ⟨s'', e?, by rw [Attempt.times, he, Attempt.andThen_none, he'], h⟩
    | some e => exact ⟨s', some e, by rw [Attempt.times, he]; rfl, hs', hE⟩

theorem updateTimes_rests (hw : V.Suits w) (ha : V.Attends w) (h : Dialogue.Resting V d) (dt : τ)
    (times : Json) :
    Dialogue.Resting V (updateTimes w dt times d).1 ∧ (updateTimes w dt times d).2.Fits := by
  unfold updateTimes
  match times.count with
  | .error e => exact ⟨h, fun _ => nofun⟩
  | .ok count =>
    obtain ⟨d', e?, he, hrest, hE⟩ := times_keeps (fun d h => Dialogue.update_rests hw ha h dt)
      count.toNat h
    simp only [he]
    refine ⟨hrest, fun e => ?_⟩
    cases e? <;> exact nofun

/-- A command from outside leaves a dialogue behind that rests. -/
theorem command_rests (hw : V.Suits (wiring interval sound publish))
    (ha : V.Attends (wiring interval sound publish)) (hV : Owned V) {o : Order τ}
    (ho : o.isCommand) (h : Dialogue.Resting V d)
    (honly : V.calm → ∀ m, o = .begin m → V.course.only = none) :
    Dialogue.Resting V (carryOut interval sound publish o d).1 ∧
      (V.calm → (carryOut interval sound publish o d).2.Fits) := by
  match hd : o.deed? with
  | some deed =>
    obtain ⟨hl, hfits⟩ := deed_lands hw ha hV hd h.steady h.calm
    exact ⟨h.lands hl nofun, hfits⟩
  | none =>
    cases o with
    | begin m =>
      obtain ⟨hl, hfits⟩ := begin_lands hw ha hV m h.steady h.calm
        fun hcalm _ => honly hcalm m rfl
      exact ⟨h.lands hl nofun, hfits⟩
    | update dt times =>
      obtain ⟨hrest, hfits⟩ := updateTimes_rests hw ha h dt times
      exact ⟨hrest, fun _ => hfits⟩
    | goOn | advance | choose | shutdown => cases hd
    | act | move => exact ho.elim

end Rehearsal
end VisualNovel
