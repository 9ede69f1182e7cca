import VisualNovel.Notice
import VisualNovel.Tag
/-!
# Pages

What is seen and heard of a line since it was announced (`Page`), and how far its reveal has come
(`Glimpse`). One run of the task that reveals it is told by that alone (`Glimpse.run`).

A player may ask for a skip while the line is revealed, and again; only the first time counts
(`Wish`). How a line stands that a player had such a wish for, is kept by every run (`Stands.run`).
When it is complete, all of it is on the page, and behind the sounds of its tags as many sounds were
played as characters were shown when the skip was asked for, or as there are (`Stands.shows`).
-/
namespace VisualNovel

/-- The sounds a directive plays. -/
def Directive.sounds : Directive → List Json
  | playSound sound => [.str sound]
  | _ => []

/-- The sounds that the tags of a line play, one after the other. -/
def Tag.sounds (tags : List String) : List Json :=
  tags.flatMap fun raw => (parse raw).toOption.elim [] Directive.sounds

/-! ## The page -/

/-- What is seen, and what is heard of a line. -/
structure Page where
  /-- How many lines were announced. -/
  lines : Nat := 0
  /-- The tags of the last of them. -/
  tags : List String := []
  /-- The sounds that were played since. -/
  sounds : List Json := []
  /-- The text that is held. -/
  held : String := ""
  /-- How many characters of it are shown. -/
  shown : Nat := 0

namespace Page

/-- The page after a call. -/
def after (p : Page) (c : Call) : Page :=
  match c with
  | .line text => { p with held := text, shown := 0 }
  | .visible count => { p with shown := min count p.held.length }
  | .play sound => { p with sounds := p.sounds ++ [sound] }
  | _ => p

/-- The page after an event, which may announce a line. -/
def hear (p : Page) (n : Notice) : Page :=
  match n with
  | ⟨.lineStarted, .line _ tags⟩ => { p with lines := p.lines + 1, tags, sounds := [] }
  | _ => p

theorem hear_of_ne (p : Page) {n : Notice} (h : n.topic ≠ .lineStarted) : p.hear n = p := by
  unfold hear
  split
  · exact absurd rfl h
  · rfl

/-- The page after some sounds. -/
def play (sounds : List Json) (p : Page) : Page := { p with sounds := p.sounds ++ sounds }

theorem play_nil (p : Page) : p.play [] = p := by
  unfold play
  rw [List.append_nil]

theorem play_play (p : Page) (sounds sounds' : List Json) :
    (p.play sounds).play sounds' = p.play (sounds ++ sounds') := by
  unfold play
  rw [List.append_assoc]

end Page

/-- Whether a call leaves the page as it is. -/
def Call.isAside : Call → Bool
  | .line _ | .visible _ | .play _ => false
  | _ => true

theorem Page.after_aside (p : Page) {c : Call} (h : c.isAside = true) : p.after c = p := by
  cases c <;> first | rfl | cases h

/-! ## Wishes -/

/-- What a player has wished for while a line was revealed. -/
inductive Wish where
  /-- There is no line: none was set, or it was broken off. -/
  | idle
  /-- No skip was asked for. -/
  | patient
  /-- A skip was asked for, for the first time when so many characters were shown. -/
  | hasty (shown : Nat)
  deriving DecidableEq, Repr

/-- The wish of a player who asks for a skip when so many characters are shown. -/
def Wish.hastened (shown : Nat) : Wish → Wish
  | .patient => .hasty shown
  | w => w

/-- The number of sounds that go with a line of so many characters. -/
def Wish.cues (total : Nat) : Wish → Nat
  | .hasty shown => shown
  | .idle | .patient => total

/-! ## Glimpses -/

/-- What is seen of a line, and how far its reveal has come. -/
structure Glimpse where
  page : Page
  line : String
  revealed : Nat
  revealing : Bool
  skip : Bool

namespace Glimpse

/-- A line is set, and nothing of it is shown. -/
def set (text : String) (g : Glimpse) : Glimpse :=
  { g with
    page := (g.page.after (.line text)).after (.visible 0)
    line := text
    revealed := 0
    revealing := true }

/-- One character more is shown. -/
def next (sound : Json) (g : Glimpse) : Glimpse :=
  { g with
    page := (g.page.after (.visible (g.revealed + 1))).after (.play sound)
    revealed := g.revealed + 1 }

/-- The rest of the line is shown, if some is left. -/
def rest (g : Glimpse) : Glimpse :=
  if g.revealed < g.line.length then
    { g with
      page := g.page.after (.visible g.line.length)
      revealed := g.line.length
      skip := false }
  else g

/-- The rest of the line is shown, and the line is complete. -/
def last (g : Glimpse) : Glimpse := { g.rest with revealing := false, skip := false }

/-- One run of the task that reveals the line. -/
def run (sound : Json) (g : Glimpse) : Glimpse :=
  if g.revealed < g.line.length ∧ g.skip = false then g.next sound else g.last

theorem rest_of_lt {g : Glimpse} (h : g.revealed < g.line.length) : g.rest =
    { g with
      page := g.page.after (.visible g.line.length)
      revealed := g.line.length
      skip := false } := if_pos h

theorem rest_of_not_lt {g : Glimpse} (h : ¬g.revealed < g.line.length) : g.rest = g := if_neg h

theorem run_of_more {sound : Json} {g : Glimpse} (h : g.revealed < g.line.length ∧ g.skip = false) :
    g.run sound = g.next sound := if_pos h

theorem run_of_last {sound : Json} {g : Glimpse}
    (h : ¬(g.revealed < g.line.length ∧ g.skip = false)) : g.run sound = g.last := if_neg h

/-- A run announces no line. -/
theorem lines_run (sound : Json) (g : Glimpse) : (g.run sound).page.lines = g.page.lines := by
  unfold run last rest
  split
  · rfl
  · split <;> rfl

/-- A run reveals the line that is there. -/
theorem line_last (g : Glimpse) : g.last.line = g.line := by
  unfold last rest
  split <;> rfl

/-! ## What is shown of a line -/

/-- So many characters of the line are on the page, and behind the sounds of its tags so many sounds
were played. -/
structure Shows (sound : Json) (shown cues : Nat) (g : Glimpse) : Prop where
  held : g.page.held = g.line
  revealed : g.revealed = shown
  shown : g.page.shown = shown
  sounds : g.page.sounds = Tag.sounds g.page.tags ++ List.replicate cues sound

namespace Shows
variable {sound : Json} {shown cues : Nat} {g : Glimpse}

theorem set (text : String) (h : g.page.sounds = Tag.sounds g.page.tags) :
    (g.set text).Shows sound 0 0 where
  held := rfl
  revealed := rfl
  shown := Nat.zero_min _
  sounds := h.trans (List.append_nil _).symm

/-- One character more, with its sound. -/
theorem next (h : g.Shows sound shown cues) (hlt : shown < g.line.length) :
    (g.next sound).Shows sound (shown + 1) (cues + 1) where
  held := h.held
  revealed := congrArg (· + 1) h.revealed
  shown := by
    show min (g.revealed + 1) g.page.held.length = shown + 1
    rw [h.held, h.revealed]
    exact Nat.min_eq_left hlt
  sounds := by
    show g.page.sounds ++ [sound] = _
    rw [h.sounds, List.append_assoc, ← List.replicate_succ']
    rfl

/-- The rest of the line makes no sound. -/
theorem last (h : g.Shows sound shown cues) (hle : shown ≤ g.line.length) :
    g.last.Shows sound g.line.length cues := by
  unfold Glimpse.last
  by_cases hlt : g.revealed < g.line.length
  · rw [rest_of_lt hlt]
    refine ⟨h.held, rfl, ?_, h.sounds⟩
    show min g.line.length g.page.held.length = _
    rw [h.held, Nat.min_self]
  · rw [rest_of_not_lt hlt]
    have hall : shown = g.line.length := by
      have hrevealed := h.revealed
      omega
    exact ⟨h.held, h.revealed.trans hall, h.shown.trans hall, h.sounds⟩

end Shows

/-- How a line stands that a player had a wish for: it is being revealed, or it is complete. -/
inductive Stands (sound : Json) : Wish → Glimpse → Prop
  | idle {g : Glimpse} (revealing : g.revealing = false) (skip : g.skip = false) :
    Stands sound .idle g
  | patient {g : Glimpse} {shown : Nat} (revealing : g.revealing = true) (skip : g.skip = false)
    (shows : g.Shows sound shown shown) : Stands sound .patient g
  | hasty {g : Glimpse} {shown : Nat} (revealing : g.revealing = true) (skip : g.skip = true)
    (shows : g.Shows sound shown shown) : Stands sound (.hasty shown) g
  | complete {g : Glimpse} {w : Wish} (some : w ≠ .idle) (revealing : g.revealing = false)
    (skip : g.skip = false) (shows : g.Shows sound g.line.length (w.cues g.line.length)) :
    Stands sound w g

namespace Stands
variable {sound : Json} {w : Wish} {g : Glimpse}

/-- When no line is revealed, no skip is asked for. -/
theorem skip (h : g.Stands sound w) (hr : g.revealing = false) : g.skip = false := by
  cases h with
  | idle _ skip | complete _ _ skip => exact skip
  | patient revealing | hasty revealing =>
    rw [hr] at revealing
    cases revealing

/-- A complete line is shown to its end, and as many sounds were played as were wished. -/
theorem shows (h : g.Stands sound w) (hw : w ≠ .idle) (hr : g.revealing = false) :
    g.Shows sound g.line.length (w.cues g.line.length) := by
  cases h with
  | idle => exact absurd rfl hw
  | patient revealing | hasty revealing =>
    rw [hr] at revealing
    cases revealing
  | complete _ _ _ shows => exact shows

/-- A line that was just set. -/
theorem set (text : String) (hs : g.skip = false) (h : g.page.sounds = Tag.sounds g.page.tags) :
    (g.set text).Stands sound .patient :=
  .patient rfl hs (.set text h)

/-- The player asks for a skip while the line is revealed. -/
theorem hasten (h : g.Stands sound w) (hr : g.revealing = true) :
    { g with skip := true }.Stands sound (w.hastened g.revealed) := by
  cases h with
  | idle revealing | complete _ revealing =>
    rw [hr] at revealing
    cases revealing
  | patient _ _ shows =>
    obtain rfl := shows.revealed
    exact .hasty hr rfl ⟨shows.held, rfl, shows.shown, shows.sounds⟩
  | hasty _ _ shows => exact .hasty hr rfl ⟨shows.held, shows.revealed, shows.shown, shows.sounds⟩

/-- A line of which the rest was shown, if as many sounds were played as were wished. -/
theorem last {shown cues : Nat} (hw : w ≠ .idle) (h : g.Shows sound shown cues)
    (hle : shown ≤ g.line.length) (hcues : cues = w.cues g.line.length) :
    g.last.Stands sound w := by
  refine .complete hw rfl rfl ?_
  rw [line_last, ← hcues]
  exact h.last hle

/-- A run leaves a line as it should stand. -/
theorem run (h : g.Stands sound w) (hr : g.revealing = true) (hle : g.revealed ≤ g.line.length) :
    (g.run sound).Stands sound w := by
  cases h with
  | idle revealing | complete _ revealing =>
    rw [hr] at revealing
    cases revealing
  | patient _ skip shows =>
    obtain rfl := shows.revealed
    by_cases hlt : g.revealed < g.line.length
    · rw [run_of_more ⟨hlt, skip⟩]
      exact .patient hr skip (shows.next hlt)
    · rw [run_of_last fun hmore => hlt hmore.1]
      exact .last nofun shows hle (Nat.le_antisymm hle (Nat.le_of_not_lt hlt))
  | hasty _ skip shows =>
    rw [run_of_last (by simp [skip])]
    exact .last nofun shows (shows.revealed ▸ hle) rfl

end Stands
end Glimpse
end VisualNovel
