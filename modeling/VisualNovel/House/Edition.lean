import VisualNovel.Gallery
import VisualNovel.Settings
import VisualNovel.Slots
/-!
# Editions

What of the settings a screen of a novel goes by. Settings may have any values; one that does not
fit shows only where the screen needs it.
-/
namespace VisualNovel

/-- How a novel is shown, and where its story, its sounds and its images lie. -/
structure Edition (τ : Type) where
  title : Json
  slots : Slots
  /-- The delay after a character. -/
  interval : τ
  /-- The sound of a character. -/
  sound : Json
  /-- The theme of the start panel. -/
  theme : Json
  script : Json
  sounds : Json
  portraits : Json
  splashes : Json
  deriving DecidableEq

/-- The edition that settings describe. -/
def Settings.edition (s : Settings) : Edition Json where
  title := s .title
  slots := .ofJson (s .choiceSlots)
  interval := s .charInterval
  sound := s .textScrollCue
  theme := s .titleTheme
  script := s .script
  sounds := s .sounds
  portraits := s .portraits
  splashes := s .splashes

/-- A gallery of the images of an edition. -/
def Edition.gallery (e : Edition τ) : Except Misfit Gallery := do
  let portraits ← e.portraits.asText
  let splashes ← e.splashes.asText
  return { portraits := .ofString portraits, splashes := .ofString splashes }

end VisualNovel
