import VisualNovel.Proofs.Rehearsal.Runs
/-!
# Faithful play

A story that is begun once in a calm rehearsal and then told to go on, with time passing in between,
is played as a plain player would play it that reads as long as there is a line and then takes the
same choices (`story_is_played_faithfully`).
-/
namespace VisualNovel

/-! ## Stories -/

theorem toOption_eq_some {ε α : Type} {r : Except ε α} {a : α} (h : r.toOption = some a) :
    r = .ok a := by
  cases r with
  | error e => cases h
  | ok b =>
    cases h
    rfl

theorem Material.graph?_script {text : String} {g : Story.Graph}
    (h : (Material.script (.str text)).graph? = some g) :
    ∃ g', (Story.compile text).result = .ok g' ∧ Story.Graph.ofContent g'.toJson = .ok g := by
  obtain ⟨g', hg', hg⟩ := Option.bind_eq_some_iff.1 h
  exact ⟨g', toOption_eq_some hg', toOption_eq_some hg⟩

namespace Rehearsal
open Story (Player)
variable {τ : Type} [Clock τ] {V : Venue τ (Stand τ)} {w : Wiring τ (Stand τ)} {d : Rehearsal τ}
  {m : Material} {g : Story.Graph}

/-! ## The beginning -/

/-- In a venue with an only story, the story is begun when nothing was published yet. -/
theorem begin_once (hw : V.Suits w) (ha : V.Attends w) {content : Json}
    (hg : Story.Graph.ofContent content = .ok g) (honly : V.course.only = some g)
    (h : V.Steady d) (hact : d.session.active = false) (hp : d.session.pending = [])
    (hnews : (V.sight d.outside).news = []) (hbows : (V.sight d.outside).bows = 0)
    (hears : (V.sight d.outside).ears = 0) :
    ∃ d' t, d.begin w content = (d', t) ∧ V.Lands d d' t := by
  obtain ⟨d₁, heq, hsteady, hf, hopens⟩ := Dialogue.begin_opens hw ha hg h hact
  obtain ⟨d', t, he, hl⟩ := Dialogue.continueStory_lands hw ha hsteady fun hcalm => Or.inr (by
    obtain ⟨hstory, hsession, hsight⟩ := hopens hcalm
    refine ⟨?_, ?_, by rw [hsession], ?_, by rw [hsession]; exact hp⟩
    · unfold Venue.Chronicle
      rw [hsight, hstory]
      show History V.course ((V.sight d.outside).news ++ _) (V.sight d.outside).bows _ .pause
      rw [hnews, hbows]
      exact .opening honly
    · rw [hsight]
      show (V.sight d.outside).ears + 1 = 1
      rw [hears]
    · cases hr : d.session.revealing with
      | false => rw [hsession]; exact hr
      | true =>
        rw [(h.shows hr).1] at hact
        cases hact)
  exact ⟨d', t, heq.trans he, hl.after hf⟩

theorem beginStory_once (hw : V.Suits w) (ha : V.Attends w) (hm : m.graph? = some g)
    (honly : V.course.only = some g) (h : V.Steady d) (hact : d.session.active = false)
    (hp : d.session.pending = []) (hnews : (V.sight d.outside).news = [])
    (hbows : (V.sight d.outside).bows = 0) (hears : (V.sight d.outside).ears = 0) :
    ∃ d' t, beginStory w m d = (d', .ok t) ∧ V.Lands d d' t := by
  unfold beginStory
  match m with
  | .content content =>
    obtain ⟨d', t, he, hl⟩ := begin_once hw ha (toOption_eq_some hm) honly h hact hp hnews hbows
      hears
    exact ⟨d', t, by simp only [he], hl⟩
  | .script (.str text) =>
    obtain ⟨g', hresult, hg⟩ := Material.graph?_script hm
    obtain ⟨o, hreports, hk⟩ := hw.reportAll_eq (Story.compile text).log h.ok
    have hsight : V.sight o = V.sight d.outside := hk.2
    obtain ⟨d', t, he, hl⟩ := begin_once hw ha hg honly (h.outside hk.sameView) hact hp
      (by rw [hsight]; exact hnews) (by rw [hsight]; exact hbows) (by rw [hsight]; exact hears)
    refine ⟨d', t, ?_, hl.after (.refl _)⟩
    simp only [hreports, hresult, he]
  | .script .null | .script (.bool _) | .script (.int _) | .script (.real _) | .script (.arr _)
  | .script (.obj _) => cases hm

variable {interval : τ} {reading : τ → Prop} {sound : Json} {n : Nat} {s : Stand τ}

theorem execute_begin (sound : Json) (hc : Clock.Runs interval reading) (hs : s.IsCalm n)
    (hencores : s.encores = []) (hm : m.graph? = some g) :
    let c : Course := ⟨some g, s.noticesEnd.toNat⟩
    Dialogue.Resting (calmVenue n reading c) (execute interval sound (.begin m) (opened s)).1 ∧
      (execute interval sound (.begin m) (opened s)).2.Fits := by
  intro c
  have hw := Stand.suits hc n True (Hushed c) c sound (publish interval sound)
  have ha : (calmVenue n reading c).Attends (wiring interval sound (publish interval sound)) :=
    attends interval sound
  obtain ⟨hsteady, hnews, hbows, hears⟩ := opened_steady (c := c) hc hs.toIsFresh
    (hushed (c := c) hs rfl fun hne => absurd hencores hne)
  have hrest : Dialogue.AtRest (opened s).scheduler := nofun
  obtain ⟨d', t, he, hl⟩ := beginStory_once hw ha hm rfl hsteady rfl rfl hnews hbows hears
  obtain ⟨hl', hfits⟩ := conclude_lands hw ha calm_owned hl
  unfold execute carryOut
  simp only [he]
  exact ⟨⟨hl'.steady, hrest.follows hl'.follows, fun hcalm => (hl'.calm hcalm).1⟩, hfits trivial⟩

/-! ## Faithful play -/

/-- What was published of a dialogue are the beats of a plain player of the story, and it stands
where that player stands. A line is under way if and only if it is being revealed. -/
structure Faithful (g : Story.Graph) (d : Rehearsal τ) : Prop where
  plays : ∃ p, d.story = some p ∧
    (Player.start g).1.play (beats d.outside.news).length
      ((beats d.outside.news).filterMap Story.Beat.pick?) = (beats d.outside.news, p)
  paced : ∃ line?, lineAfter d.outside.news = some line? ∧ (d.session.active = true →
    line? = if d.session.revealing then some d.session.line else none)

omit [Clock τ] in
theorem faithful_of_rests {c : Course} (h : Dialogue.Resting (calmVenue n reading c) d)
    (hg : c.only = some g) : Faithful g d := by
  refine ⟨(history_of_rests h).plays hg, ?_⟩
  obtain ⟨line?, hl, hpace⟩ := h.steady.pace
  have hnews : d.outside.sight.news = d.outside.news := h.steady.ok.2.news
  exact ⟨line?, hnews ▸ hl, hpace⟩

/-- Once begun, a story is played faithfully, whatever commands are given while time passes, and no
command is refused by the story. -/
theorem story_is_played_faithfully (sound : Json) (hc : Clock.Runs interval reading)
    (hs : s.IsCalm n) (hencores : s.encores = []) (hm : m.graph? = some g) {os : List (Order τ)}
    (hos : ∀ o ∈ os, o.isCommand ∧ ∀ m, o ≠ .begin m) :
    Faithful g (rehearse interval sound (.begin m :: os) (opened s)) ∧
      ∀ a ∈ answers interval sound (.begin m :: os) (opened s), a.Fits := by
  obtain ⟨hrest, hfits⟩ := execute_begin sound hc hs hencores hm
  obtain ⟨hrest', hfits'⟩ := rehearse_keeps os (A := Answer.Fits)
    (fun o ho d hd => execute_calm sound hc (hos o ho).1 hd fun m hbegin =>
      absurd hbegin ((hos o ho).2 m)) hrest
  refine ⟨faithful_of_rests hrest' rfl, fun a ha => ?_⟩
  rcases List.mem_cons.1 ha with rfl | ha
  · exact hfits
  · exact hfits' a ha

/-- A visitor hears a line, chooses to stay, and hears it again. -/
theorem visit_is_played_faithfully :
    let node : Story.Node := {
      id := "hall"
      lines := [⟨"Hi!", ["char:host"]⟩]
      choices := [⟨"Stay", "hall"⟩, ⟨"Go", "END"⟩] }
    let content : Json := .obj [("nodes", .arr [.obj [("id", .str "hall"),
      ("lines", .arr [.obj [("text", .str "Hi!"), ("tags", .arr [.str "char:host"])]]),
      ("choices", .arr [.obj [("text", .str "Stay"), ("next", .str "hall")],
        .obj [("text", .str "Go"), ("next", .str "END")]])]])]
    let s : Stand Rat := { slots := .count 2 }
    let visit : List (Order Rat) := [.goOn, .update 1 (.int 4), .choose (.int 0), .advance]
    let d := rehearse 1 .null (.begin (.content content) :: visit) (opened s)
    (Material.content content).graph? = some ⟨"story", "hall", [node]⟩ ∧
      Faithful ⟨"story", "hall", [node]⟩ d ∧ beats d.outside.news =
        [.line "Hi!" ["char:host"], .choice 0, .line "Hi!" ["char:host"]] := by
  intro node content s visit d
  have hgraph : (Material.content content).graph? = some ⟨"story", "hall", [node]⟩ := by
    decide +kernel
  have hs : s.IsCalm 2 := by
    refine ⟨⟨rfl, rfl, rfl, fun v hv => ?_, fun k hk => ?_⟩, fun k hk => ?_⟩
    · cases hv
    · cases hk
    · cases hk
  have hvisit : ∀ o ∈ visit, o.isCommand ∧ ∀ m, o ≠ .begin m := by simp [visit, Order.isCommand]
  exact ⟨hgraph, (story_is_played_faithfully .null (Clock.runs_rat 1) hs rfl hgraph hvisit).1,
    by decide +kernel⟩

end Rehearsal
end VisualNovel
