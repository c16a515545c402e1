import Chip8.Keyboard

set_option autoImplicit false

/-! Presses as a property of the changes alone. A press is a change of one key
from up to down; it is open until a later press or a replacement of all keys.
The keyboard remembers exactly the press that is open. -/

namespace Chip8

def KeyAction.replacesAll : KeyAction → Bool
  | .setAll keys => keys.length == 16
  | _ => false

namespace Keyboard

def performAll (keyboard : Keyboard) (actions : List KeyAction) : Keyboard :=
  actions.foldl perform keyboard

def pressedBy? (keyboard : Keyboard) : KeyAction → Option Nibble
  | .set number after =>
      if keyboard.isDown number = false ∧ after = true then some (keyOf number) else none
  | .toggle number => if keyboard.isDown number = false then some (keyOf number) else none
  | .setAll _ => none

/-- No action of a series presses a key or replaces all of them. -/
def KeepsPress (keyboard : Keyboard) : List KeyAction → Prop
  | [] => True
  | action :: later =>
      keyboard.pressedBy? action = none ∧ action.replacesAll = false ∧
        (keyboard.perform action).KeepsPress later

/-- The latest press of a series is of this key, and no replacement of all keys
comes after it. -/
def OpenPress (keyboard : Keyboard) (actions : List KeyAction) (key : Nibble) : Prop :=
  ∃ earlier action later, actions = earlier ++ action :: later ∧
    (keyboard.performAll earlier).pressedBy? action = some key ∧
    ((keyboard.performAll earlier).perform action).KeepsPress later

theorem performAll_append (keyboard : Keyboard) (first second : List KeyAction) :
    keyboard.performAll (first ++ second) = (keyboard.performAll first).performAll second := by
  unfold performAll
  rw [List.foldl_append]

theorem not_openPress_nil (keyboard : Keyboard) (key : Nibble) : ¬ keyboard.OpenPress [] key := by
  rintro ⟨earlier, action, later, split, _pressed⟩
  exact List.append_ne_nil_of_right_ne_nil earlier (List.cons_ne_nil action later) split.symm

theorem openPress_cons_iff (keyboard : Keyboard) (action : KeyAction) (later : List KeyAction)
    (key : Nibble) :
    keyboard.OpenPress (action :: later) key ↔
      (keyboard.pressedBy? action = some key ∧ (keyboard.perform action).KeepsPress later) ∨
        (keyboard.perform action).OpenPress later key := by
  constructor
  · rintro ⟨earlier, pressing, rest, split, pressed, keeps⟩
    cases earlier with
    | nil =>
        cases split
        exact Or.inl ⟨pressed, keeps⟩
    | cons first others =>
        obtain ⟨sameFirst, sameRest⟩ := List.cons.inj split
        subst first
        exact Or.inr ⟨others, pressing, rest, sameRest, pressed, keeps⟩
  · rintro (⟨pressed, keeps⟩ | ⟨earlier, pressing, rest, split, pressed, keeps⟩)
    · exact ⟨[], action, later, rfl, pressed, keeps⟩
    · exact ⟨action :: earlier, pressing, rest, congrArg (action :: ·) split, pressed, keeps⟩

theorem keepsPress_append_iff (keyboard : Keyboard) (first second : List KeyAction) :
    keyboard.KeepsPress (first ++ second) ↔
      keyboard.KeepsPress first ∧ (keyboard.performAll first).KeepsPress second := by
  induction first generalizing keyboard with
  | nil =>
      change keyboard.KeepsPress second ↔ True ∧ keyboard.KeepsPress second
      rw [true_and]
  | cons action later ih =>
      change _ ∧ _ ∧ (keyboard.perform action).KeepsPress (later ++ second) ↔
        (_ ∧ _ ∧ _) ∧ ((keyboard.perform action).performAll later).KeepsPress second
      rw [ih, and_assoc, and_assoc]

theorem not_openPress_of_keeps (keyboard : Keyboard) (actions : List KeyAction) (key : Nibble)
    (keeps : keyboard.KeepsPress actions) : ¬ keyboard.OpenPress actions key := by
  rintro ⟨earlier, action, later, split, pressed, _keepsLater⟩
  rw [split, keepsPress_append_iff] at keeps
  rw [keeps.2.1] at pressed
  cases pressed

theorem openPress_append_iff_of_keeps (keyboard : Keyboard) (actions later : List KeyAction)
    (key : Nibble) (keeps : (keyboard.performAll actions).KeepsPress later) :
    keyboard.OpenPress (actions ++ later) key ↔ keyboard.OpenPress actions key := by
  induction actions generalizing keyboard with
  | nil =>
      constructor
      · intro opened
        exact absurd opened (keyboard.not_openPress_of_keeps later key keeps)
      · intro opened
        exact absurd opened (keyboard.not_openPress_nil key)
  | cons action rest ih =>
      change ((keyboard.perform action).performAll rest).KeepsPress later at keeps
      rw [List.cons_append, openPress_cons_iff, openPress_cons_iff, ih _ keeps,
        keepsPress_append_iff, and_iff_left keeps]

theorem keepsPress_release (keyboard : Keyboard) (number : Nat) :
    keyboard.KeepsPress [.set number false] := by
  simp [KeepsPress, pressedBy?, KeyAction.replacesAll]

theorem keepsPress_of_isDown (keyboard : Keyboard) (number : Nat)
    (held : keyboard.isDown number = true) (action : KeyAction)
    (member : action ∈ [KeyAction.set number true, KeyAction.toggle number]) :
    keyboard.KeepsPress [action] := by
  simp only [List.mem_cons, List.not_mem_nil, or_false] at member
  rcases member with pressed | toggled
  · subst action
    simp [KeepsPress, pressedBy?, KeyAction.replacesAll, held]
  · subst action
    simp [KeepsPress, pressedBy?, KeyAction.replacesAll, held]

/-! ### What the keyboard remembers -/

theorem pendingPress_perform (keyboard : Keyboard) (action : KeyAction) :
    (keyboard.perform action).pendingPress =
      match keyboard.pressedBy? action with
      | some key => some key
      | none => if action.replacesAll = true then none else keyboard.pendingPress := by
  cases action with
  | set number after =>
      simp only [perform, pressedBy?, pendingPress_setKey, KeyAction.replacesAll]
      by_cases pressing : keyboard.isDown number = false ∧ after = true
      · simp only [if_pos pressing]
      · simp only [if_neg pressing, Bool.false_eq_true, if_false]
  | toggle number =>
      simp only [perform, toggle, pressedBy?, pendingPress_setKey, KeyAction.replacesAll]
      cases keyboard.isDown number <;> simp
  | setAll keys =>
      simp only [perform, pressedBy?, setAll?, KeyAction.replacesAll, beq_iff_eq]
      by_cases sixteen : keys.length = 16
      · rw [dif_pos sixteen, if_pos sixteen]
        rfl
      · rw [dif_neg sixteen, if_neg sixteen]
        rfl

/-- After a series of actions the press remembered is the one that is open, or
the one from before the series if nothing took its place. -/
theorem pendingPress_performAll_iff (keyboard : Keyboard) (actions : List KeyAction)
    (key : Nibble) :
    (keyboard.performAll actions).pendingPress = some key ↔
      keyboard.OpenPress actions key ∨
        (keyboard.pendingPress = some key ∧ keyboard.KeepsPress actions) := by
  induction actions generalizing keyboard with
  | nil =>
      change keyboard.pendingPress = some key ↔ _
      simp only [keyboard.not_openPress_nil key, KeepsPress, and_true, false_or]
  | cons action later ih =>
      change ((keyboard.perform action).performAll later).pendingPress = some key ↔ _
      rw [ih, pendingPress_perform, openPress_cons_iff, KeepsPress]
      cases pressed : keyboard.pressedBy? action with
      | some other =>
          simp only [reduceCtorEq, false_and, and_false, or_false]
          exact or_comm
      | none =>
          cases replaces : action.replacesAll with
          | true => simp
          | false => simp

theorem pendingPress_performAll_of_none (keyboard : Keyboard) (actions : List KeyAction)
    (key : Nibble) (unpressed : keyboard.pendingPress = none) :
    (keyboard.performAll actions).pendingPress = some key ↔ keyboard.OpenPress actions key := by
  rw [pendingPress_performAll_iff, unpressed]
  simp

theorem withoutPress_of_none (keyboard : Keyboard) (unpressed : keyboard.pendingPress = none) :
    keyboard.withoutPress = keyboard := by
  cases keyboard
  cases unpressed
  rfl

end Keyboard

end Chip8
