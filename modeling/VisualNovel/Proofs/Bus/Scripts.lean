import VisualNovel.HandlerScript
import VisualNovel.Proofs.Bus.Conduct
/-!
# What scripted handlers do

A script acts on the bus by its commands only, and each of them comes to one deed or to none. So the
handlers of every forum have a conduct (`conduct`), whatever their scripts.
-/
namespace VisualNovel.Forum

/-- An event of a forum. -/
abbrev News := Event (List (String × Json))

theorem exchange_lawful : exchange.Lawful where
  bus_withBus _ _ := rfl
  bus_report _ _ := rfl

/-- The deed that a command comes to. -/
def deed? (c : BusCommand) (f : Forum) : Option (BusDeed String (List (String × Json))) :=
  match c with
  | .subscribe h t priority oneShot weak =>
    if f.known h then some (.subscribe t ⟨priority, h, oneShot, weak⟩) else none
  | .unsubscribe h t => if f.known h then some (.unsubscribe t h) else none
  | .publish t data =>
    match dataOf data with
    | .ok data => some (.publish ⟨t, data⟩)
    | .error _ => none
  | .clear t => some (.clear t)
  | .isSubscribed _ _ | .misnamed _ => none

/-- A command that is carried out during a delivery does its deed to the bus. -/
theorem carryOut_bus (c : BusCommand) (f : Forum) :
    (carryOut queue c f).1.bus =
      (deed? c f).elim f.bus (f.bus.heed (exchange.isLive · f)) := by
  cases c with
  | subscribe h t priority oneShot weak =>
    simp only [carryOut, deed?]
    cases f.known h with
    | false => rfl
    | true =>
      simp only [if_true, Option.elim, Bus.heed]
      cases f.bus.subscribe t ⟨priority, h, oneShot, weak⟩ <;> rfl
  | unsubscribe h t =>
    simp only [carryOut, deed?]
    cases f.known h <;> rfl
  | isSubscribed h t =>
    simp only [carryOut, deed?]
    cases f.known h <;> rfl
  | publish t data =>
    simp only [carryOut, deed?]
    cases dataOf data <;> rfl
  | clear t => rfl
  | misnamed t => rfl

/-- The deeds of an instruction. -/
def stepDeeds (s : HandlerStep) (f : Forum) : List (BusDeed String (List (String × Json))) :=
  match s with
  | .command c => (deed? c f).toList
  | _ => []

/-- The deeds of the instructions of a handler, up to the first that fails. -/
def scriptDeeds (e : News) (count : Nat) :
    (consumed : Bool) → List LimitedStep → Forum → List (BusDeed String (List (String × Json)))
  | _, [], _ => []
  | consumed, s :: rest, f =>
    if s.limit.all (count ≤ ·) then
      stepDeeds s.step f ++
        match perform e consumed s.step f with
        | (_, ⟨_, true⟩) => []
        | (f, ⟨consumed, false⟩) => scriptDeeds e count consumed rest f
    else scriptDeeds e count consumed rest f

theorem perform_command (e : News) (consumed : Bool) (c : BusCommand) (f : Forum) :
    (perform e consumed (.command c) f).1 = (carryOut queue c f).1 := by
  simp only [perform]
  rcases carryOut queue c f with ⟨f', answer⟩
  cases answer <;> rfl

/-- An instruction that is no command leaves the bus alone. -/
theorem perform_aside (e : News) (consumed : Bool) {s : HandlerStep} (f : Forum)
    (hs : ∀ c, s ≠ .command c) : (perform e consumed s f).1.bus = f.bus := by
  cases s with
  | command c => exact absurd rfl (hs c)
  | consume => rfl
  | fail => rfl
  | get key default =>
    simp only [perform]
    split <;> rfl
  | item key =>
    simp only [perform]
    split <;> rfl

/-- An instruction changes the bus by its deeds. -/
theorem perform_does (e : News) (consumed : Bool) (s : HandlerStep) {f : Forum}
    (hf : f.bus.delivering = true) {ds : List (BusDeed String (List (String × Json)))} {f' : Forum}
    (h : exchange.Does ds (perform e consumed s f).1 f') :
    exchange.Does (stepDeeds s f ++ ds) f f' := by
  cases s with
  | command c =>
    have hbus := carryOut_bus c f
    rw [perform_command] at h
    simp only [stepDeeds]
    cases hd : deed? c f with
    | none =>
      rw [hd] at hbus
      exact .aside hbus h
    | some d =>
      rw [hd] at hbus
      refine .deed rfl (.aside ?_ h)
      rw [exchange_lawful.bus_perform Exchange.cascadeLimit d hf]
      exact hbus
  | consume => exact .aside (perform_aside e consumed f (by simp)) h
  | fail => exact .aside (perform_aside e consumed f (by simp)) h
  | get key default => exact .aside (perform_aside e consumed f (by simp)) h
  | item key => exact .aside (perform_aside e consumed f (by simp)) h

/-- An instruction does not end the delivery. -/
theorem perform_delivering (e : News) (consumed : Bool) (s : HandlerStep) {f : Forum}
    (hf : f.bus.delivering = true) : (perform e consumed s f).1.bus.delivering = true := by
  have h := perform_does e consumed s hf (.rest (x := exchange) rfl)
  exact (h.queue exchange_lawful hf).1

/-- A script changes the bus by its deeds. -/
theorem performAll_does (e : News) (count : Nat) (consumed : Bool) (steps : List LimitedStep)
    {f : Forum} (hf : f.bus.delivering = true) :
    exchange.Does (scriptDeeds e count consumed steps f) f
      (performAll e count consumed steps f).1 := by
  induction steps generalizing consumed f with
  | nil => exact .rest rfl
  | cons s rest ih =>
    unfold scriptDeeds performAll
    split
    · rcases hperform : perform e consumed s.step f with ⟨f₁, consumed₁, failed⟩
      have hdoes {ds : List (BusDeed String (List (String × Json)))} {f' : Forum}
          (h : exchange.Does ds f₁ f') : exchange.Does (stepDeeds s.step f ++ ds) f f' :=
        perform_does e consumed s.step hf (by rw [hperform]; exact h)
      have hf₁ := perform_delivering e consumed s.step hf
      rw [hperform] at hf₁
      cases failed with
      | true => exact hdoes (.rest rfl)
      | false => exact hdoes (ih consumed₁ hf₁)
    · exact ih consumed hf

/-- A forum in which the call of a handler is on record. -/
def noted (h : String) (e : News) (f : Forum) : Forum :=
  { f with calls := Assoc.upsert h ((f.calls.lookup h).getD 0 + 1) f.calls }.leave (.called h e)

/-- The deeds of a call of a handler. -/
def callDeeds (h : String) (e : News) (f : Forum) : List (BusDeed String (List (String × Json))) :=
  scriptDeeds e ((f.calls.lookup h).getD 0 + 1) false ((f.scripts.lookup h).getD []) (f.noted h e)

/-- A call of a handler changes the bus by its deeds. -/
theorem call_does (h : String) (e : News) {f : Forum} (hf : f.bus.delivering = true) :
    exchange.Does (callDeeds h e f) f (call h e f).1 := by
  have hnoted : exchange.bus (f.noted h e) = exchange.bus f := rfl
  have hscript : exchange.Does (callDeeds h e f) (f.noted h e) (call h e f).1 :=
    performAll_does e ((f.calls.lookup h).getD 0 + 1) false ((f.scripts.lookup h).getD []) hf
  exact hscript.aside hnoted

/-- What scripted handlers do when they are called. -/
def conduct : exchange.Conduct where
  deeds := callDeeds
  does h e _ hf := call_does h e hf

/-- The instruction to carry out a command at every call. -/
def always (c : BusCommand) : LimitedStep := ⟨.command c, none⟩

end VisualNovel.Forum
