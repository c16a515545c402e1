import Chip8.KeyboardWaits
import Chip8.Keypad
import Chip8.Proofs.KeyPresses
import Mathlib.Data.List.Induction
import Mathlib.Tactic.SplitIfs

set_option autoImplicit false

/-! The keyboard as a function of what was done to it. A key is down if the latest
operation that set it left it so. The press that can be taken is the latest change
of a key from up to down, unless it was taken or all keys were replaced since. All
clones of a shared keyboard work on one keyboard, so it does not matter which of
them an operation goes through. -/

namespace Chip8

inductive KeyboardOperation where
  | change (action : KeyAction)
  | take
  deriving DecidableEq, Repr

namespace KeyboardOperation

def key? : KeyboardOperation → Option Nibble
  | .change (.set number _) => some (keyOf number)
  | .change (.toggle number) => some (keyOf number)
  | .change (.setAll _) => none
  | .take => none

def replacesAll : KeyboardOperation → Bool
  | .change action => action.replacesAll
  | .take => false

/-- The state an operation sets a key to, given the state the key is in. -/
def leaves? (operation : KeyboardOperation) (before : Bool) (key : Nibble) : Option Bool :=
  match operation with
  | .change (.set number after) => if keyOf number = key then some after else none
  | .change (.toggle number) => if keyOf number = key then some (!before) else none
  | .change (.setAll keys) => if keys.length = 16 then keys[key.val]? else none
  | .take => none

/-- Beyond a taken press and a replacement of all keys no press can be taken. -/
def endsPress (operation : KeyboardOperation) : Bool :=
  operation == .take || operation.replacesAll

end KeyboardOperation

namespace Keyboard

def operate (keyboard : Keyboard) : KeyboardOperation → Keyboard
  | .change action => keyboard.perform action
  | .take => (Keypad.takePress keyboard).2

/-- A fresh keyboard after a history, whose latest operation comes first. -/
def afterHistory (history : List KeyboardOperation) : Keyboard :=
  history.foldr (fun operation keyboard => keyboard.operate operation) idle

end Keyboard

/-- An operation of a history with all that came before it, latest first. -/
structure KeyboardMoment where
  operation : KeyboardOperation
  earlier : List KeyboardOperation
  deriving DecidableEq, Repr

namespace KeyboardMoment

def before (moment : KeyboardMoment) : Keyboard :=
  Keyboard.afterHistory moment.earlier

def after (moment : KeyboardMoment) : Keyboard :=
  Keyboard.afterHistory (moment.operation :: moment.earlier)

def place (moment : KeyboardMoment) : Nat :=
  moment.earlier.length

def leaves? (moment : KeyboardMoment) (key : Nibble) : Option Bool :=
  moment.operation.leaves? (moment.before.isDown key.val) key

def pressed? (moment : KeyboardMoment) : Option Nibble :=
  moment.operation.key?.filter (fun key =>
    !moment.before.isDown key.val && moment.after.isDown key.val)

def change? (moment : KeyboardMoment) : Option KeyChange :=
  moment.operation.key?.map (fun key =>
    ⟨key, moment.before.isDown key.val, moment.after.isDown key.val⟩)

end KeyboardMoment

def keyboardMoments : List KeyboardOperation → List KeyboardMoment
  | [] => []
  | operation :: earlier => ⟨operation, earlier⟩ :: keyboardMoments earlier

/-- The moments since a press was taken or all keys were replaced. -/
def openMoments (history : List KeyboardOperation) : List KeyboardMoment :=
  (keyboardMoments history).takeWhile (fun moment => !moment.operation.endsPress)

/-- The moment of the press that is handed out if it is asked for right after the
history. -/
def handedOut? (history : List KeyboardOperation) : Option KeyboardMoment :=
  (openMoments history).find? (fun moment => moment.pressed?.isSome)

def KeyboardMoment.answer? (moment : KeyboardMoment) : Option WaitAnswer :=
  if moment.operation = .take then
    some (.took ((handedOut? moment.earlier).bind pressed?))
  else none

def KeyboardOperation.steps : KeyboardOperation → List ThreadStep
  | .change action => [.change action, .notify]
  | .take => [.take]

/-- Calls one after the other, each through the clone of its number. -/
def cloneSteps (calls : List (Nat × KeyboardOperation)) : List (Nat × ThreadStep) :=
  calls.flatMap (fun call => call.2.steps.map (fun step => (call.1, step)))

/-! ### One operation -/

namespace Keyboard

theorem isDown_keyOf (keyboard : Keyboard) (number : Nat) :
    keyboard.isDown (keyOf number).val = keyboard.isDown number := by
  simp only [isDown, keyOf_val]

theorem isDown_operate (keyboard : Keyboard) (operation : KeyboardOperation) (key : Nibble) :
    (keyboard.operate operation).isDown key.val =
      (operation.leaves? (keyboard.isDown key.val) key).getD (keyboard.isDown key.val) := by
  cases operation with
  | take => rfl
  | change action =>
      cases action with
      | set number after =>
          simp only [operate, perform, KeyboardOperation.leaves?, isDown_setKey, keyOf_val]
          split_ifs <;> rfl
      | toggle number =>
          simp only [operate, perform, toggle, KeyboardOperation.leaves?, isDown_setKey, keyOf_val]
          split_ifs with same
          · rw [← same, isDown_keyOf]
            rfl
          · rfl
      | setAll keys =>
          simp only [operate, perform, setAll?, KeyboardOperation.leaves?]
          split_ifs with sixteen
          · have below : key.val < keys.length := by rw [sixteen]; exact key.isLt
            simp [isDown, keyOf_val, below]
          · rfl

theorem lastChange_setKey (keyboard : Keyboard) (number : Nat) (after : Bool) :
    (keyboard.setKey number after).lastChange =
      some ⟨keyOf number, keyboard.isDown number, (keyboard.setKey number after).isDown number⟩ := by
  rw [isDown_setKey, if_pos rfl]
  rfl

theorem lastChange_operate (keyboard : Keyboard) (operation : KeyboardOperation) :
    (keyboard.operate operation).lastChange =
      match operation.key? with
      | some key =>
          some ⟨key, keyboard.isDown key.val, (keyboard.operate operation).isDown key.val⟩
      | none => if operation.replacesAll then none else keyboard.lastChange := by
  cases operation with
  | take => rfl
  | change action =>
      cases action with
      | set number after =>
          simp only [operate, perform, KeyboardOperation.key?, isDown_keyOf]
          exact keyboard.lastChange_setKey number after
      | toggle number =>
          simp only [operate, perform, KeyboardOperation.key?, isDown_keyOf]
          exact keyboard.lastChange_setKey number _
      | setAll keys =>
          simp only [operate, perform, setAll?, KeyboardOperation.key?,
            KeyboardOperation.replacesAll, KeyAction.replacesAll, beq_iff_eq]
          split_ifs <;> rfl

theorem filter_key?_eq_pressedBy? (keyboard : Keyboard) (action : KeyAction) :
    (KeyboardOperation.change action).key?.filter (fun key =>
        !keyboard.isDown key.val && (keyboard.operate (.change action)).isDown key.val) =
      keyboard.pressedBy? action := by
  cases action with
  | set number after =>
      simp only [operate, perform, KeyboardOperation.key?, pressedBy?, Option.filter_some,
        isDown_keyOf, isDown_setKey, keyOf_val, if_true]
      cases keyboard.isDown number <;> cases after <;> rfl
  | toggle number =>
      simp only [operate, perform, toggle, KeyboardOperation.key?, pressedBy?, Option.filter_some,
        isDown_keyOf, isDown_setKey, keyOf_val, if_true]
      cases keyboard.isDown number <;> rfl
  | setAll keys => rfl

theorem pendingPress_operate (keyboard : Keyboard) (operation : KeyboardOperation) :
    (keyboard.operate operation).pendingPress =
      if operation.endsPress then none
      else (operation.key?.filter (fun key =>
        !keyboard.isDown key.val && (keyboard.operate operation).isDown key.val)).or
          keyboard.pendingPress := by
  cases operation with
  | take => rfl
  | change action =>
      rw [filter_key?_eq_pressedBy?]
      change (keyboard.perform action).pendingPress =
        if action.replacesAll then none else (keyboard.pressedBy? action).or keyboard.pendingPress
      rw [pendingPress_perform]
      cases action with
      | setAll keys => rfl
      | set number after => cases keyboard.pressedBy? (.set number after) <;> rfl
      | toggle number => cases keyboard.pressedBy? (.toggle number) <;> rfl

end Keyboard

/-! ### Whole histories -/

theorem isDown_afterHistory (history : List KeyboardOperation) (key : Nibble) :
    (Keyboard.afterHistory history).isDown key.val =
      ((keyboardMoments history).findSome? (fun moment => moment.leaves? key)).getD false := by
  induction history with
  | nil =>
      simp [Keyboard.afterHistory, Keyboard.idle, Keyboard.isDown, keyboardMoments]
  | cons operation earlier ih =>
      change ((Keyboard.afterHistory earlier).operate operation).isDown key.val = _
      rw [Keyboard.isDown_operate, keyboardMoments, List.findSome?_cons]
      change ((⟨operation, earlier⟩ : KeyboardMoment).leaves? key).getD _ = _
      cases (⟨operation, earlier⟩ : KeyboardMoment).leaves? key with
      | none => exact ih
      | some left => rfl

theorem lastChange_afterHistory (history : List KeyboardOperation) :
    (Keyboard.afterHistory history).lastChange =
      ((keyboardMoments history).find? (fun moment =>
        moment.operation.key?.isSome || moment.operation.replacesAll)).bind
          KeyboardMoment.change? := by
  induction history with
  | nil => rfl
  | cons operation earlier ih =>
      change ((Keyboard.afterHistory earlier).operate operation).lastChange = _
      rw [Keyboard.lastChange_operate, keyboardMoments, List.find?_cons, ih]
      cases sets : operation.key? with
      | some key => simp [KeyboardMoment.change?, sets, KeyboardMoment.before,
          KeyboardMoment.after, Keyboard.afterHistory]
      | none =>
          cases replaces : operation.replacesAll with
          | true => simp [KeyboardMoment.change?, sets]
          | false => simp

theorem handedOut?_cons (operation : KeyboardOperation) (earlier : List KeyboardOperation) :
    handedOut? (operation :: earlier) =
      if operation.endsPress then none
      else if (⟨operation, earlier⟩ : KeyboardMoment).pressed?.isSome then
        some ⟨operation, earlier⟩
      else handedOut? earlier := by
  unfold handedOut? openMoments
  rw [keyboardMoments, List.takeWhile_cons]
  cases operation.endsPress with
  | true => rfl
  | false =>
      simp only [Bool.not_false, if_true, List.find?_cons]
      cases (⟨operation, earlier⟩ : KeyboardMoment).pressed?.isSome <;> rfl

theorem pendingPress_afterHistory (history : List KeyboardOperation) :
    (Keyboard.afterHistory history).pendingPress =
      (handedOut? history).bind KeyboardMoment.pressed? := by
  induction history with
  | nil => rfl
  | cons operation earlier ih =>
      change ((Keyboard.afterHistory earlier).operate operation).pendingPress = _
      rw [Keyboard.pendingPress_operate, handedOut?_cons, ih]
      cases operation.endsPress with
      | true => rfl
      | false =>
          change (KeyboardMoment.pressed? ⟨operation, earlier⟩).or _ = _
          cases pressed : (⟨operation, earlier⟩ : KeyboardMoment).pressed? with
          | none => rfl
          | some key => exact pressed.symm

theorem hasPress_afterHistory_iff (history : List KeyboardOperation) :
    (Keyboard.afterHistory history).hasPress = true ↔
      ∃ moment ∈ openMoments history, moment.pressed?.isSome = true := by
  unfold Keyboard.hasPress
  rw [pendingPress_afterHistory, ← List.find?_isSome]
  change _ ↔ (handedOut? history).isSome = true
  cases handed : handedOut? history with
  | none => rfl
  | some moment =>
      have pressed := (List.find?_eq_some_iff_append.mp handed).1
      simp only [Option.bind_some, Option.isSome_some, pressed]

theorem takePress_afterHistory (history : List KeyboardOperation) :
    (Keypad.takePress (Keyboard.afterHistory history)).1.map UInt8.toNat =
      ((handedOut? history).bind KeyboardMoment.pressed?).map Fin.val := by
  rw [← pendingPress_afterHistory]
  change ((Keyboard.afterHistory history).pendingPress.map _).map _ = _
  cases (Keyboard.afterHistory history).pendingPress with
  | none => rfl
  | some key =>
      have bound := key.isLt
      simp only [Option.map_some, UInt8.toNat_ofNat', Option.some.injEq]
      omega

/-! ### No press twice -/

theorem place_lt_of_mem (history : List KeyboardOperation) (moment : KeyboardMoment)
    (member : moment ∈ keyboardMoments history) : moment.place < history.length := by
  induction history with
  | nil => cases member
  | cons operation earlier ih =>
      rw [keyboardMoments, List.mem_cons] at member
      rcases member with latest | before
      · rw [latest]
        exact Nat.lt_succ_self _
      · exact Nat.lt_succ_of_lt (ih before)

theorem mem_of_handedOut? (history : List KeyboardOperation) (moment : KeyboardMoment)
    (handed : handedOut? history = some moment) : moment ∈ keyboardMoments history :=
  List.takeWhile_subset _ (List.mem_of_find?_eq_some handed)

/-- Once a press was asked for, only later presses are handed out. -/
theorem length_lt_place_of_handedOut? (later history : List KeyboardOperation)
    (moment : KeyboardMoment) (handed : handedOut? (later ++ .take :: history) = some moment) :
    history.length < moment.place := by
  induction later with
  | nil =>
      have nothing : handedOut? (.take :: history) = none := rfl
      rw [List.nil_append, nothing] at handed
      cases handed
  | cons operation others ih =>
      rw [List.cons_append, handedOut?_cons] at handed
      split_ifs at handed with ended pressed
      · cases handed
        simp only [KeyboardMoment.place, List.length_append, List.length_cons]
        omega
      · exact ih handed

theorem handedOut?_ne_of_replaced (history : List KeyboardOperation)
    (moment other : KeyboardMoment) (member : other ∈ keyboardMoments history)
    (later : moment.place < other.place)
    (replaces : other.pressed?.isSome = true ∨ other.operation.replacesAll = true) :
    handedOut? history ≠ some moment := by
  intro handed
  induction history with
  | nil => cases member
  | cons operation earlier ih =>
      rw [handedOut?_cons] at handed
      rw [keyboardMoments, List.mem_cons] at member
      split_ifs at handed with ended pressed
      · cases handed
        have last : other.place ≤ earlier.length := by
          rcases member with latest | before
          · rw [latest]
            exact Nat.le_refl _
          · exact Nat.le_of_lt (place_lt_of_mem earlier other before)
        exact absurd later (Nat.not_lt_of_le last)
      · rcases member with latest | before
        · rw [latest] at replaces
          rcases replaces with presses | all
          · exact pressed presses
          · exact ended (by simp [KeyboardOperation.endsPress, all])
        · exact ih before handed

/-! ### Clones -/

namespace SharedKeyboard

theorem run_append (shared : SharedKeyboard) (first second : List (Nat × ThreadStep)) :
    shared.run (first ++ second) =
      (((shared.run first).1.run second).1,
        (shared.run first).2 ++ ((shared.run first).1.run second).2) := by
  induction first generalizing shared with
  | nil => rfl
  | cons entry later ih =>
      obtain ⟨thread, step⟩ := entry
      simp only [List.cons_append, run]
      cases shared.step? thread step with
      | none => exact ih shared
      | some outcome => simp only [ih, List.append_assoc]

theorem run_steps (keyboard : Keyboard) (clone : Nat) (operation : KeyboardOperation) :
    (ofKeyboard keyboard).run (operation.steps.map (fun step => (clone, step))) =
      (ofKeyboard (keyboard.operate operation),
        if operation = .take then [.took keyboard.pendingPress] else []) := by
  cases operation with
  | take => rfl
  | change action =>
      -- No other thread is in a call, so the notification finds nobody to wake.
      simp only [KeyboardOperation.steps, List.map_cons, List.map_nil, run, step?, ofKeyboard,
        setPhase, notifyAll, if_true, Keyboard.operate, reduceCtorEq, if_false]
      refine Prod.ext (congrArg (SharedKeyboard.mk _) (funext fun thread => ?_)) rfl
      by_cases same : thread = clone
      · rw [if_pos same]
      · rw [if_neg same, if_neg same]

theorem run_cloneSteps (calls : List (Nat × KeyboardOperation)) :
    (ofKeyboard .idle).run (cloneSteps calls) =
      (ofKeyboard (Keyboard.afterHistory (calls.map Prod.snd).reverse),
        (keyboardMoments (calls.map Prod.snd).reverse).reverse.filterMap
          KeyboardMoment.answer?) := by
  induction calls using List.reverseRecOn with
  | nil => rfl
  | append_singleton earlier call ih =>
      unfold cloneSteps at ih ⊢
      rw [List.flatMap_append, run_append, ih, List.flatMap_singleton, run_steps, List.map_append,
        List.reverse_append]
      generalize (earlier.map Prod.snd).reverse = history
      have answered : [(⟨call.2, history⟩ : KeyboardMoment)].filterMap KeyboardMoment.answer? =
          if call.2 = .take then
            [.took (Keyboard.afterHistory history).pendingPress] else [] := by
        rw [pendingPress_afterHistory]
        simp only [List.filterMap_cons, List.filterMap_nil, KeyboardMoment.answer?]
        split_ifs <;> rfl
      rw [← answered, ← List.filterMap_append, ← List.reverse_cons]
      rfl

end SharedKeyboard

theorem Keyboard.setAll?_eq_none_iff (keys : List Bool) :
    Keyboard.setAll? keys = none ↔ keys.length ≠ 16 := by
  unfold Keyboard.setAll?
  split_ifs with sixteen <;> simp [sixteen]

theorem Keyboard.operate_setAll_of_refused (keyboard : Keyboard) (keys : List Bool)
    (refused : keys.length ≠ 16) : keyboard.operate (.change (.setAll keys)) = keyboard := by
  simp only [operate, perform, (setAll?_eq_none_iff keys).mpr refused, Option.getD_none]

/-- After any operations, through any clones, the keys, the press and the latest
change are those of the history. A key is as the latest operation that set it left
it. A press can be taken if a key went down since one was taken and since all keys
were replaced, and what is taken is the key that did so last; whatever is taken
later went down later, and what another press or a replacement followed is taken
by nobody. The latest change is that of the latest operation on a single key, if
no replacement followed. Keys that are not sixteen replace nothing. -/
theorem keyboard_tells_its_history (calls : List (Nat × KeyboardOperation)) :
    let history := (calls.map Prod.snd).reverse
    let keyboard := Keyboard.afterHistory history
    let moments := keyboardMoments history
    (SharedKeyboard.ofKeyboard .idle).run (cloneSteps calls) =
        (.ofKeyboard keyboard, moments.reverse.filterMap KeyboardMoment.answer?) ∧
      (∀ number, keyboard.isDown number =
        (moments.findSome? (fun moment => moment.leaves? (keyOf number))).getD false) ∧
      (keyboard.hasPress = true ↔
        ∃ moment ∈ openMoments history, moment.pressed?.isSome = true) ∧
      ((Keypad.takePress keyboard).1.map UInt8.toNat =
          ((handedOut? history).bind KeyboardMoment.pressed?).map Fin.val ∧
        ∀ key ∈ (Keypad.takePress keyboard).1, key.toNat < 16) ∧
      (∀ later first second, handedOut? history = some first →
        handedOut? (later ++ .take :: history) = some second → first.place < second.place) ∧
      (∀ moment other, other ∈ moments → moment.place < other.place →
        other.pressed?.isSome = true ∨ other.operation.replacesAll = true →
          handedOut? history ≠ some moment) ∧
      (keyboard.lastChange =
          (moments.find? (fun moment =>
            moment.operation.key?.isSome || moment.operation.replacesAll)).bind
              KeyboardMoment.change? ∧
        (Keypad.takePress keyboard).2.lastChange = keyboard.lastChange) ∧
      ∀ keys, (Keyboard.setAll? keys = none ↔ keys.length ≠ 16) ∧
        (keys.length ≠ 16 → keyboard.operate (.change (.setAll keys)) = keyboard) := by
  intro history keyboard moments
  have taken := takePress_afterHistory history
  refine ⟨SharedKeyboard.run_cloneSteps calls, ?_, hasPress_afterHistory_iff history, ⟨taken, ?_⟩,
    ?_, ?_, ⟨lastChange_afterHistory history, rfl⟩, ?_⟩
  · intro number
    rw [← keyboard.isDown_keyOf number]
    exact isDown_afterHistory history (keyOf number)
  · intro key answered
    rw [Option.mem_def.mp answered] at taken
    obtain ⟨press, _handed, same⟩ := Option.map_eq_some_iff.mp taken.symm
    rw [← same]
    exact press.isLt
  · intro later first second handedFirst handedSecond
    exact Nat.lt_trans
      (place_lt_of_mem history first (mem_of_handedOut? history first handedFirst))
      (length_lt_place_of_handedOut? later history second handedSecond)
  · intro moment other member later replaces
    exact handedOut?_ne_of_replaced history moment other member later replaces
  · intro keys
    exact ⟨Keyboard.setAll?_eq_none_iff keys, keyboard.operate_setAll_of_refused keys⟩

example : (handedOut? [.change (.set 0x17 false), .change (.set 2 true), .change (.toggle 7),
    .take, .change (.set 2 true)]).bind KeyboardMoment.pressed? = some 7 := by
  decide

end Chip8
