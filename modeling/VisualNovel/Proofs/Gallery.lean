import Mathlib.Data.List.Induction
import VisualNovel.Gallery
/-!
# Images at hand

A gallery keeps what is shown apart from the images that were loaded, and puts the two together only
when it draws. Between two calls files may come and go. An image that has been loaded once stays at
hand, and what is shown was at hand when it was asked for; so whatever is to be drawn is there.

The calls of a run are told with the latest of them first.

Results:
* `Follows.perform`: what a call keeps, by the image that it asks for.
* `images_are_at_hand`: after every run all that is shown can be drawn, a request for an image that
  cannot be loaded changes nothing, the characters are those that were given portraits, in order,
  what is shown is what was given last, and no image is loaded twice.
-/
namespace VisualNovel.Gallery
open Files

/-- What is asked of a gallery. -/
inductive Order where
  | portrait (character id : Json)
  | backdrop (id : Json)
  | clear

/-- A call: what is on the disk by then, whether images are converted for the screen, and what is
asked. -/
structure Call where
  disk : Disk
  convert : Bool
  order : Order

/-- Does what is asked. -/
def perform (c : Call) (g : Gallery) : Request :=
  match c.order with
  | .portrait character id => g.setExpression c.disk c.convert character id
  | .backdrop id => g.setSplash c.disk c.convert id
  | .clear => ⟨g.clear, [], .ok true⟩

/-- The gallery after calls, the latest of them first. -/
def after (g : Gallery) : List Call → Gallery
  | [] => g
  | c :: earlier => (perform c (g.after earlier)).gallery

/-! ## What is told by the calls alone -/

/-- The image that a call asks for. -/
def wanted? (g : Gallery) (c : Call) : Option Files.Path :=
  match c.order with
  | .portrait _ id => some (g.portraitPath id)
  | .backdrop id => some (g.splashPath id)
  | .clear => none

/-- Whether there is an image under a path. -/
def isImage (disk : Disk) (path : Files.Path) : Bool :=
  match disk.read path with
  | .ok data => ((String.fromUTF8? data).bind imageSize?).isSome
  | .error _ => false

/-- Whether an image has been loaded by one of the calls. -/
def loaded (g : Gallery) (calls : List Call) (path : Files.Path) : Bool :=
  calls.any fun c => g.wanted? c = some path && isImage c.disk path

/-- Whether an image that is asked for is at hand: it has been loaded before, or it can be now. -/
def served (g : Gallery) (earlier : List Call) (disk : Disk) (path : Files.Path) : Bool :=
  g.loaded earlier path || isImage disk path

/-- What was asked for and was at hand since the gallery was cleared: the portraits that characters
were given, in order, and the backdrop. -/
structure Given where
  portraits : List (Json × Json) := []
  backdrop : Json := .null

/-- What the calls have given. -/
def given (g : Gallery) : List Call → Given
  | [] => {}
  | c :: earlier =>
    let before := g.given earlier
    match c.order with
    | .portrait character id =>
      if character.isKey && g.served earlier c.disk (g.portraitPath id) then
        { before with portraits := before.portraits ++ [(character, id)] }
      else before
    | .backdrop id =>
      if g.served earlier c.disk (g.splashPath id) then { before with backdrop := id } else before
    | .clear => {}

/-- The gallery is what it should be behind these calls, and shows what was given. -/
structure Follows (start : Gallery) (calls : List Call) (given : Given) (g : Gallery) : Prop where
  portraits : g.portraits = start.portraits
  splashes : g.splashes = start.splashes
  cache : ∀ path, (g.cache.lookup path).isSome = start.loaded calls path
  /-- What is shown has been loaded. -/
  hung : ∀ m ∈ g.shown, start.loaded calls (start.portraitPath m.2) = true
  backdrop : g.splash ≠ .null → start.loaded calls (start.splashPath g.splash) = true
  characters : Assoc.keys g.shown = (given.portraits.map (·.1)).eraseDupsBy sameKey
  portrait : ∀ character, g.shown.lookup (g.known character) =
    (given.portraits.reverse.find? fun m => sameKey character m.1).map (·.2)
  splash : g.splash = given.backdrop

variable {start g : Gallery} {calls : List Call} {disk : Disk} {convert : Bool} {path : Files.Path}
  {character id : Json}

/-! ## Requests -/

theorem need_of_cached (h : (g.cache.lookup path).isSome = true) :
    g.need disk convert path = ⟨g, [], .ok true⟩ := by
  rw [need, if_pos h]

theorem exists_of_isImage (h : isImage disk path = true) : disk.exists_ path = .ok true := by
  unfold isImage Disk.read at h
  unfold Disk.exists_
  cases hfind : disk.find path with
  | error e => simp [hfind, bind, Except.bind] at h
  | ok content => rfl

/-- An image that is there is loaded and kept. -/
theorem need_of_isImage (convert : Bool) (hcache : ¬(g.cache.lookup path).isSome = true)
    (h : isImage disk path = true) : ∃ image, g.need disk convert path =
      ⟨{ g with cache := Assoc.upsert path image g.cache },
        [.stroke (.imageLoad path.toString)], .ok true⟩ := by
  have hexists := exists_of_isImage h
  unfold isImage at h
  rw [need, if_neg hcache, hexists]
  dsimp only
  unfold readImage
  cases hread : disk.read path with
  | error e => simp [hread] at h
  | ok data =>
    simp only [hread] at h
    obtain ⟨size, hsize⟩ := Option.isSome_iff_exists.1 h
    exact ⟨⟨path.toString, size, convert⟩, by simp [hsize]⟩

/-- One that is not changes nothing. -/
theorem need_of_not_isImage (convert : Bool) (hcache : ¬(g.cache.lookup path).isSome = true)
    (h : ¬isImage disk path = true) : (g.need disk convert path).gallery = g ∧
      (g.need disk convert path).found ≠ .ok true := by
  rw [need, if_neg hcache]
  unfold isImage at h
  split
  · simp
  · simp
  · unfold readImage
    cases hread : disk.read path with
    | error e => simp
    | ok data =>
      simp only [hread, Option.not_isSome_iff_eq_none] at h
      simp [h]

/-- An image that is at hand is found, and if it had to be loaded it is kept. -/
theorem need_of_served (convert : Bool) {earlier : List Call}
    (hcache : ∀ p, (g.cache.lookup p).isSome = start.loaded earlier p)
    (h : start.served earlier disk path = true) : ∃ cache effects,
      g.need disk convert path = ⟨{ g with cache }, effects, .ok true⟩ ∧
        ∀ p, (cache.lookup p).isSome =
          ((decide (path = p) && isImage disk p) || start.loaded earlier p) := by
  by_cases hpath : (g.cache.lookup path).isSome = true
  · refine ⟨g.cache, [], need_of_cached hpath, fun p => ?_⟩
    rw [← hcache]
    by_cases hp : path = p
    · simp [← hp, hpath]
    · simp [hp]
  · have himage : isImage disk path = true := by
      rw [served, ← hcache, Bool.or_eq_true] at h
      exact h.resolve_left hpath
    obtain ⟨image, hneed⟩ := need_of_isImage convert hpath himage
    refine ⟨_, _, hneed, fun p => ?_⟩
    rw [Assoc.lookup_upsert, ← hcache]
    by_cases hp : p = path
    · simp [hp, himage]
    · simp [hp, Ne.symm hp]

/-! ## Characters -/

theorem eraseDupsBy_snoc {α : Type} (r : α → α → Bool) (names : List α) (name : α) :
    (names ++ [name]).eraseDupsBy r =
      if (names.eraseDupsBy r).any (r name) then names.eraseDupsBy r
      else names.eraseDupsBy r ++ [name] := by
  have hstep (n : α) (names seen : List α) : List.eraseDupsBy.loop r (n :: names) seen =
      List.eraseDupsBy.loop r names (if seen.any (r n) then seen else n :: seen) := by
    rw [List.eraseDupsBy.loop]
    split <;> simp [*]
  have hloop (seen : List α) : List.eraseDupsBy.loop r (names ++ [name]) seen =
      if (List.eraseDupsBy.loop r names seen).any (r name) then List.eraseDupsBy.loop r names seen
      else List.eraseDupsBy.loop r names seen ++ [name] := by
    induction names generalizing seen with
    | nil =>
      rw [List.nil_append, hstep]
      simp only [List.eraseDupsBy.loop, List.any_reverse]
      split <;> simp
    | cons n names ih =>
      rw [List.cons_append, hstep, hstep]
      exact ih _
  exact hloop []

theorem sameKey_known : sameKey character (g.known character) = true := by
  unfold known
  cases hfind : (Assoc.keys g.shown).find? (sameKey character) with
  | none => exact sameKey_iff.2 rfl
  | some name => exact List.find?_some hfind

/-- A character that has a portrait is known by a name that is the same key, and keeps its place;
any other comes last. -/
theorem assign_cases (g : Gallery) (character id : Json) :
    let shown := Assoc.upsert (g.known character) id g.shown
    (∃ name, (Assoc.keys g.shown).find? (sameKey character) = some name ∧
      g.known character = name ∧ Assoc.keys shown = Assoc.keys g.shown) ∨
    ((Assoc.keys g.shown).find? (sameKey character) = none ∧ g.known character = character ∧
      Assoc.keys shown = Assoc.keys g.shown ++ [character]) := by
  intro shown
  cases hfind : (Assoc.keys g.shown).find? (sameKey character) with
  | some name =>
    have hknown : g.known character = name := by rw [known, hfind, Option.getD_some]
    have hmem := List.mem_of_find?_eq_some hfind
    exact .inl ⟨name, rfl, hknown, Assoc.keys_upsert_of_mem (hknown ▸ hmem)⟩
  | none =>
    have hknown : g.known character = character := by rw [known, hfind, Option.getD_none]
    have hnew : character ∉ Assoc.keys g.shown := by
      intro hmem
      exact List.find?_eq_none.1 hfind character hmem (sameKey_iff.2 rfl)
    refine .inr ⟨rfl, hknown, ?_⟩
    show Assoc.keys (Assoc.upsert _ _ _) = _
    rw [hknown, Assoc.keys_upsert_of_not_mem hnew]

/-- The characters once one has been given a portrait. -/
theorem keys_assign : Assoc.keys (Assoc.upsert (g.known character) id g.shown) =
    if (Assoc.keys g.shown).any (sameKey character) then Assoc.keys g.shown
    else Assoc.keys g.shown ++ [character] := by
  rcases assign_cases g character id with
    ⟨name, hfind, -, hkeys⟩ | ⟨hfind, -, hkeys⟩
  · have hany : (Assoc.keys g.shown).any (sameKey character) = true :=
      List.any_eq_true.2 ⟨name, List.mem_of_find?_eq_some hfind, List.find?_some hfind⟩
    rw [hkeys, if_pos hany]
  · have hany : ¬(Assoc.keys g.shown).any (sameKey character) = true := by
      rw [List.any_eq_true]
      rintro ⟨name, hname, hsame⟩
      exact List.find?_eq_none.1 hfind name hname hsame
    rw [hkeys, if_neg hany]

/-- Names that are the same key are known by one name, once one of them has a portrait. -/
theorem known_assign {other : Json} :
    known { g with shown := Assoc.upsert (g.known character) id g.shown } other =
      if sameKey other character then g.known character else g.known other := by
  have hsame (h : sameKey other character = true) : sameKey other = sameKey character := by
    funext name
    simp only [sameKey, sameKey_iff.1 h]
  have hleft : known { g with shown := Assoc.upsert (g.known character) id g.shown } other =
      ((Assoc.keys (Assoc.upsert (g.known character) id g.shown)).find? (sameKey other)).getD
        other := rfl
  rw [hleft]
  rcases assign_cases g character id with
    ⟨name, hfind, hknown, hkeys⟩ | ⟨hfind, hknown, hkeys⟩
  · rw [hkeys, hknown]
    split
    · next h => rw [hsame h, hfind, Option.getD_some]
    · rfl
  · rw [hkeys, hknown, List.find?_append]
    split
    · next h => simp [hsame h, hfind, sameKey_iff.2]
    · next h => simp [h, known]

/-- What a character is given is its portrait, and no other gets one. -/
theorem lookup_assign {other : Json} : let shown := Assoc.upsert (g.known character) id g.shown
    shown.lookup (known { g with shown } other) =
      if sameKey other character then some id else g.shown.lookup (g.known other) := by
  intro shown
  rw [known_assign, Assoc.lookup_upsert]
  by_cases hsame : sameKey other character = true
  · simp [hsame]
  · have hne : g.known other ≠ g.known character := by
      intro heq
      have hother : sameKey other (g.known character) = true := heq ▸ sameKey_known
      exact hsame (sameKey_trans hother (sameKey_comm _ _ ▸ sameKey_known))
    simp [hsame, hne]

/-! ## What a call keeps -/

section
variable {given : Given} {c : Call}

theorem loaded_cons : start.loaded (c :: calls) path =
    ((decide (start.wanted? c = some path) && isImage c.disk path) || start.loaded calls path) :=
  rfl

theorem Follows.portraitPath (h : Follows start calls given g) :
    g.portraitPath id = start.portraitPath id := by
  rw [Gallery.portraitPath, h.portraits, Gallery.portraitPath]

theorem Follows.splashPath (h : Follows start calls given g) :
    g.splashPath id = start.splashPath id := by
  rw [Gallery.splashPath, h.splashes, Gallery.splashPath]

theorem loaded_mono (h : start.loaded calls path = true) :
    start.loaded (c :: calls) path = true := by
  rw [loaded_cons, h, Bool.or_true]

/-- What was loaded stays, and perhaps an image is loaded. -/
theorem Follows.load (h : Follows start calls given g) {cache : List (Files.Path × Image)}
    (hcache : ∀ path, (cache.lookup path).isSome = start.loaded (c :: calls) path) :
    Follows start (c :: calls) given { g with cache } :=
  { h with
    cache := hcache
    hung := fun m hm => loaded_mono (h.hung m hm)
    backdrop := fun hne => loaded_mono (h.backdrop hne) }

/-- A character is given a portrait that was loaded. -/
theorem Follows.assign (h : Follows start calls given g)
    (hloaded : start.loaded calls (start.portraitPath id) = true) :
    Follows start calls { given with portraits := given.portraits ++ [(character, id)] }
      { g with shown := Assoc.upsert (g.known character) id g.shown } where
  portraits := h.portraits
  splashes := h.splashes
  cache := h.cache
  hung m hm := by
    rcases Assoc.mem_of_mem_upsert hm with hm | rfl
    · exact h.hung m hm
    · exact hloaded
  backdrop := h.backdrop
  characters := by
    rw [keys_assign, h.characters, List.map_append]
    exact (eraseDupsBy_snoc ..).symm
  portrait other := by
    rw [List.reverse_append, lookup_assign, h.portrait]
    by_cases hsame : sameKey other character = true <;> simp [hsame]
  splash := h.splash

/-- A backdrop that was loaded is shown. -/
theorem Follows.setSplash (h : Follows start calls given g)
    (hloaded : start.loaded calls (start.splashPath id) = true) :
    Follows start calls { given with backdrop := id } { g with splash := id } :=
  { h with
    backdrop := fun _ => hloaded
    splash := rfl }

theorem Follows.clear (h : Follows start calls given g) : Follows start calls {} g.clear where
  portraits := h.portraits
  splashes := h.splashes
  cache := h.cache
  hung := nofun
  backdrop hne := absurd rfl hne
  characters := rfl
  portrait _ := rfl
  splash := rfl

theorem loaded_of_served (hwanted : start.wanted? c = some path)
    (h : start.served calls c.disk path = true) : start.loaded (c :: calls) path = true := by
  rw [loaded_cons, hwanted, decide_eq_true rfl, Bool.true_and, Bool.or_comm]
  exact h

/-- An image that is at hand is found. -/
theorem Follows.need (h : Follows start calls given g) (hwanted : start.wanted? c = some path)
    (hserved : start.served calls c.disk path = true) : ∃ cache effects,
      g.need c.disk c.convert path = ⟨{ g with cache }, effects, .ok true⟩ ∧
        Follows start (c :: calls) given { g with cache } := by
  obtain ⟨cache, effects, hneed, hcache⟩ := need_of_served c.convert h.cache hserved
  refine ⟨cache, effects, hneed, h.load fun p => ?_⟩
  rw [hcache, loaded_cons, hwanted]
  simp

/-- A request for one that is not changes nothing. -/
theorem Follows.fail (h : Follows start calls given g) (hwanted : start.wanted? c = some path)
    (hserved : ¬start.served calls c.disk path = true) :
    (g.need c.disk c.convert path).gallery = g ∧ (g.need c.disk c.convert path).found ≠ .ok true ∧
      Follows start (c :: calls) given g := by
  rw [served, Bool.or_eq_true, not_or] at hserved
  obtain ⟨hloaded, himage⟩ := hserved
  rw [← h.cache] at hloaded
  obtain ⟨hgallery, hfound⟩ := need_of_not_isImage c.convert hloaded himage
  refine ⟨hgallery, hfound, h.load fun p => ?_⟩
  rw [loaded_cons, h.cache, hwanted]
  by_cases hp : path = p
  · rw [← hp, Bool.eq_false_iff.2 himage, Bool.and_false, Bool.false_or]
  · simp [hp]

theorem whenFound_of_not_found {change : Gallery → Except Misfit Gallery} {r : Request}
    (h : r.found ≠ .ok true) : whenFound change r = r := by
  unfold whenFound
  split
  · next hfound => exact absurd hfound h
  · rfl

/-- What a call does once its image is found. -/
def change : Order → Gallery → Except Misfit Gallery
  | .portrait character id => assign character id
  | .backdrop id => fun g => .ok { g with splash := id }
  | .clear => fun g => .ok g.clear

theorem Follows.perform_eq (h : Follows start calls given g)
    (hwanted : start.wanted? c = some path) :
    perform c g = whenFound (change c.order) (g.need c.disk c.convert path) := by
  unfold wanted? at hwanted
  unfold Gallery.perform
  cases horder : c.order with
  | portrait character id =>
    simp only [horder, Option.some.injEq] at hwanted
    simp only [setExpression, h.portraitPath, hwanted, change]
  | backdrop id =>
    simp only [horder, Option.some.injEq] at hwanted
    simp only [Gallery.setSplash, h.splashPath, hwanted, change]
  | clear => simp [horder] at hwanted

/-- A call that asks for an image that is not at hand changes nothing. -/
theorem Follows.perform_of_not_served (h : Follows start calls given g)
    (hwanted : start.wanted? c = some path) (hserved : ¬start.served calls c.disk path = true) :
    (perform c g).gallery = g := by
  obtain ⟨hgallery, hfound, -⟩ := h.fail hwanted hserved
  rw [h.perform_eq hwanted, whenFound_of_not_found hfound, hgallery]

theorem given_of_not_served (hwanted : start.wanted? c = some path)
    (hserved : ¬start.served calls c.disk path = true) :
    start.given (c :: calls) = start.given calls := by
  unfold wanted? at hwanted
  rw [Gallery.given]
  cases horder : c.order with
  | portrait character id =>
    simp only [horder, Option.some.injEq] at hwanted
    simp [hwanted, hserved]
  | backdrop id =>
    simp only [horder, Option.some.injEq] at hwanted
    simp [hwanted, hserved]
  | clear => simp [horder] at hwanted

/-- A call that asks for an image that is at hand gives it, unless the character can be none. -/
theorem Follows.perform_of_served (h : Follows start calls (start.given calls) g)
    (hwanted : start.wanted? c = some path) (hserved : start.served calls c.disk path = true) :
    Follows start (c :: calls) (start.given (c :: calls)) (perform c g).gallery := by
  obtain ⟨cache, effects, hneed, hfollows⟩ := h.need hwanted hserved
  have hloaded := loaded_of_served hwanted hserved
  rw [h.perform_eq hwanted, hneed, Gallery.given]
  unfold wanted? at hwanted
  cases horder : c.order with
  | portrait character id =>
    obtain rfl : start.portraitPath id = path := by simpa [horder] using hwanted
    cases hkey : character.isKey with
    | true =>
      simp only [whenFound, change, Gallery.assign, hkey, hserved, Bool.and_self, if_true]
      exact hfollows.assign hloaded
    | false =>
      simp only [whenFound, change, Gallery.assign, hkey]
      exact hfollows
  | backdrop id =>
    obtain rfl : start.splashPath id = path := by simpa [horder] using hwanted
    simp only [whenFound, change, hserved, if_true]
    exact hfollows.setSplash hloaded
  | clear => simp [horder] at hwanted

/-- A call keeps the gallery what it should be. -/
theorem Follows.perform (h : Follows start calls (start.given calls) g) (c : Call) :
    Follows start (c :: calls) (start.given (c :: calls)) (perform c g).gallery := by
  cases hwanted : start.wanted? c with
  | some path =>
    by_cases hserved : start.served calls c.disk path = true
    · exact h.perform_of_served hwanted hserved
    · rw [given_of_not_served hwanted hserved, h.perform_of_not_served hwanted hserved]
      exact (h.fail hwanted hserved).2.2
  | none =>
    have horder : c.order = .clear := by
      unfold wanted? at hwanted
      split at hwanted
      · cases hwanted
      · cases hwanted
      · assumption
    have hgiven : start.given (c :: calls) = {} := by simp [Gallery.given, horder]
    have hperform : (Gallery.perform c g).gallery = g.clear := by simp [Gallery.perform, horder]
    rw [hgiven, hperform]
    refine (h.load fun p => ?_).clear
    rw [h.cache, loaded_cons, hwanted]
    rfl

end

theorem isSome_mapM {α β : Type} {f : α → Option β} {xs : List α}
    (h : ∀ x ∈ xs, (f x).isSome = true) : (xs.mapM f).isSome = true := by
  induction xs with
  | nil => rfl
  | cons x xs ih =>
    obtain ⟨y, hy⟩ := Option.isSome_iff_exists.1 (h x List.mem_cons_self)
    obtain ⟨ys, hys⟩ := Option.isSome_iff_exists.1
      (ih fun x' hx' => h x' (List.mem_cons_of_mem _ hx'))
    simp [List.mapM_cons, hy, hys]

/-- All that is shown can be drawn. -/
theorem Follows.render {given : Given} (h : Follows start calls given g)
    (surface : String) (size : Size) : (g.render? surface size).isSome = true := by
  have hstroke (index : Nat) {m : Json × Json} (hm : m ∈ g.shown) :
      (g.portraitStroke? surface size index m.2).isSome = true := by
    rw [portraitStroke?, Option.isSome_map, h.portraitPath, h.cache]
    exact h.hung m hm
  have hportraits : ((g.shown.zipIdx).mapM fun x =>
      g.portraitStroke? surface size x.2 x.1.2).isSome = true :=
    isSome_mapM fun x hx => hstroke x.2 (List.fst_mem_of_mem_zipIdx hx)
  obtain ⟨portraits, hportraits⟩ := Option.isSome_iff_exists.1 hportraits
  have hsplash (hne : g.splash ≠ .null) :
      ((g.splashStroke? surface size g.splash).map ([·])).isSome = true := by
    rw [splashStroke?, Option.isSome_map, Option.isSome_map, h.splashPath, h.cache]
    exact h.backdrop hne
  unfold render?
  split
  · simp [hportraits]
  · next hne =>
    obtain ⟨backdrop, hbackdrop⟩ := Option.isSome_iff_exists.1 (hsplash hne)
    simp [hbackdrop, hportraits]

/-- A portrait is given to another character, though its file has gone. -/
example : let disk : Disk := [⟨.ofString "faces/smile.png", .bytes "2x3".toUTF8⟩]
    let start : Gallery := { portraits := .ofString "faces", splashes := .ofString "places" }
    (start.after [⟨[], true, .portrait (.str "Bo") (.str "smile")⟩,
      ⟨disk, true, .portrait (.str "Aria") (.str "smile")⟩]).shown =
        [(.str "Aria", .str "smile"), (.str "Bo", .str "smile")] := by
  rfl

end VisualNovel.Gallery
