import Chip8.TerminalKeys
import Mathlib.Data.List.Induction
import Mathlib.Data.List.Nodup

set_option autoImplicit false

/-! The keys that a terminal holds down, as a property of what was typed alone. A key is
held until a release whose time its latest press does not outlast, and the keyboard has
down exactly the keys that are held. The held keys are a set of entries: the order in
which they are visited shows nowhere. -/

namespace Chip8

inductive HoldEvent where
  | press (key : Nibble) (now : Nat)
  | typed (key : TerminalKey) (control : Bool) (now : Nat)
  | expire (now : Nat)
  | take
  deriving DecidableEq, Repr

/-- The keys of a terminal that end everything: escape, and a small c with control. -/
def TerminalKey.stops (key : TerminalKey) (control : Bool) : Bool :=
  key = .escape || (key = .character 'c' && control)

namespace HoldEvent

def stops : HoldEvent → Bool
  | typed key control _ => key.stops control
  | _ => false

def pressed? : HoldEvent → Option (Nibble × Nat)
  | press key now => some (key, now)
  | typed key control now =>
      if key.stops control then none else key.machineKey?.map (fun number => (number, now))
  | _ => none

def expiry? : HoldEvent → Option Nat
  | expire now => some now
  | _ => none

def time? (event : HoldEvent) : Option Nat :=
  (event.pressed?.map Prod.snd).or event.expiry?

end HoldEvent

def InOrder (history : List HoldEvent) : Prop :=
  (history.filterMap HoldEvent.time?).Pairwise (· ≤ ·)

/-- The latest press of a key holds it until this time, and no release since then came
so late. -/
def HeldUntil (duration : Nat) (history : List HoldEvent) (key : Nibble) (release : Nat) : Prop :=
  ∃ before event after now, history = before ++ event :: after ∧
    event.pressed? = some (key, now) ∧ release = now + duration ∧
    (∀ later ∈ after, ∀ again, later.pressed? ≠ some (key, again)) ∧
    ∀ later ∈ after, ∀ expired, later.expiry? = some expired → expired < release

namespace KeyHold

def happen (hold : KeyHold) : HoldEvent → KeyHold
  | .press key now => hold.press key.val now
  | .typed key control now => hold.handle key control now
  | .expire now => hold.releaseExpired now
  | .take => hold.withoutPress

/-- What a hold can become through a history. Before and after every event its entries
may come into another order, and are visited in that order from then on. -/
inductive Becomes (first : KeyHold) : List HoldEvent → KeyHold → Prop
  | start : Becomes first [] first
  | happened (history : List HoldEvent) (reached : KeyHold) (event : HoldEvent)
      (earlier : Becomes first history reached) :
      Becomes first (history ++ [event]) (reached.happen event)
  | reordered (history : List HoldEvent) (reached : KeyHold) (visited : List (Nat × Nat))
      (earlier : Becomes first history reached) (same : visited.Perm reached.held) :
      Becomes first history { reached with held := visited }

end KeyHold

/-! ### Histories -/

theorem heldUntil_append_iff (duration : Nat) (history : List HoldEvent) (event : HoldEvent)
    (key : Nibble) (release : Nat) :
    HeldUntil duration (history ++ [event]) key release ↔
      (∃ now, event.pressed? = some (key, now) ∧ release = now + duration) ∨
        (HeldUntil duration history key release ∧
          (∀ again, event.pressed? ≠ some (key, again)) ∧
          ∀ expired, event.expiry? = some expired → expired < release) := by
  constructor
  · rintro ⟨before, pressing, after, now, split, pressed, lasts, latest, unexpired⟩
    rcases List.eq_nil_or_concat after with rfl | ⟨rest, last, rfl⟩
    · obtain ⟨_before, same⟩ := List.append_inj' split rfl
      cases same
      exact Or.inl ⟨now, pressed, lasts⟩
    · rw [List.concat_eq_append] at split latest unexpired
      rw [← List.cons_append, ← List.append_assoc] at split
      obtain ⟨earlier, same⟩ := List.append_inj' split rfl
      cases same
      rw [List.forall_mem_append, List.forall_mem_singleton] at latest unexpired
      exact Or.inr ⟨⟨before, pressing, rest, now, earlier, pressed, lasts, latest.1, unexpired.1⟩,
        latest.2, unexpired.2⟩
  · rintro (⟨now, pressed, lasts⟩ |
      ⟨⟨before, pressing, after, now, split, pressed, lasts, latest, unexpired⟩, other, alive⟩)
    · exact ⟨history, event, [], now, rfl, pressed, lasts, List.forall_mem_nil _,
        List.forall_mem_nil _⟩
    · refine ⟨before, pressing, after ++ [event], now, ?_, pressed, lasts, ?_, ?_⟩
      · rw [split, List.append_assoc, List.cons_append]
      · rw [List.forall_mem_append, List.forall_mem_singleton]
        exact ⟨latest, other⟩
      · rw [List.forall_mem_append, List.forall_mem_singleton]
        exact ⟨unexpired, alive⟩

theorem heldUntil_append_of_pressed (duration : Nat) (history : List HoldEvent)
    (event : HoldEvent) (key : Nibble) (release now : Nat)
    (pressed : event.pressed? = some (key, now)) :
    HeldUntil duration (history ++ [event]) key release ↔ release = now + duration := by
  rw [heldUntil_append_iff, pressed]
  constructor
  · rintro (⟨again, same, lasts⟩ | ⟨_held, other, _alive⟩)
    · cases same
      exact lasts
    · exact absurd rfl (other now)
  · intro lasts
    exact Or.inl ⟨now, rfl, lasts⟩

theorem heldUntil_append_of_unpressed (duration : Nat) (history : List HoldEvent)
    (event : HoldEvent) (key : Nibble) (release : Nat)
    (unpressed : ∀ now, event.pressed? ≠ some (key, now)) :
    HeldUntil duration (history ++ [event]) key release ↔
      HeldUntil duration history key release ∧
        ∀ expired, event.expiry? = some expired → expired < release := by
  rw [heldUntil_append_iff]
  constructor
  · rintro (⟨now, pressed, _lasts⟩ | ⟨held, _other, alive⟩)
    · exact absurd pressed (unpressed now)
    · exact ⟨held, alive⟩
  · rintro ⟨held, alive⟩
    exact Or.inr ⟨held, unpressed, alive⟩

theorem not_heldUntil_nil (duration : Nat) (key : Nibble) (release : Nat) :
    ¬ HeldUntil duration [] key release := by
  rintro ⟨before, event, after, now, split, _pressed⟩
  exact List.append_ne_nil_of_right_ne_nil before (List.cons_ne_nil event after) split.symm

theorem HoldEvent.expiry?_of_pressed (event : HoldEvent) (key : Nibble) (now : Nat)
    (pressed : event.pressed? = some (key, now)) : event.expiry? = none := by
  cases event with
  | press key now => rfl
  | typed key control now => rfl
  | expire now => cases pressed
  | take => rfl

theorem InOrder.of_append {history : List HoldEvent} {event : HoldEvent}
    (ordered : InOrder (history ++ [event])) :
    InOrder history ∧
      ∀ now, event.time? = some now → ∀ time ∈ history.filterMap HoldEvent.time?, time ≤ now := by
  unfold InOrder at ordered ⊢
  rw [List.filterMap_append, List.pairwise_append] at ordered
  refine ⟨ordered.1, ?_⟩
  intro now timed time listed
  apply ordered.2.2 time listed
  simp [timed]

theorem HoldEvent.time?_of_pressed (event : HoldEvent) (key : Nibble) (now : Nat)
    (pressed : event.pressed? = some (key, now)) : event.time? = some now := by
  unfold time?
  rw [pressed]
  rfl

theorem HoldEvent.time?_of_expiry (event : HoldEvent) (now : Nat)
    (expires : event.expiry? = some now) : event.time? = some now := by
  cases event with
  | press key now => cases expires
  | typed key control now => cases expires
  | expire now => exact expires
  | take => cases expires

/-- In a history in order, a key outlasts a time exactly if some press of it does, the
latest or not. -/
theorem heldBeyond_iff (duration now : Nat) (history : List HoldEvent) (key : Nibble)
    (ordered : InOrder history) (past : ∀ time ∈ history.filterMap HoldEvent.time?, time ≤ now) :
    (∃ release, HeldUntil duration history key release ∧ now < release) ↔
      ∃ event ∈ history, ∃ pressed, event.pressed? = some (key, pressed) ∧
        now < pressed + duration := by
  induction history using List.reverseRecOn with
  | nil =>
      constructor
      · rintro ⟨release, held, _beyond⟩
        exact absurd held (not_heldUntil_nil duration key release)
      · rintro ⟨event, listed, _pressed⟩
        cases listed
  | append_singleton history event ih =>
      obtain ⟨orderedBefore, timesBefore⟩ := ordered.of_append
      rw [List.filterMap_append, List.forall_mem_append] at past
      have before := ih orderedBefore past.1
      by_cases presses : ∃ latest, event.pressed? = some (key, latest)
      · -- No earlier press lasts longer than the latest one.
        obtain ⟨latest, pressed⟩ := presses
        have latestTime := event.time?_of_pressed key latest pressed
        simp only [heldUntil_append_of_pressed duration history event key _ latest pressed,
          exists_eq_left]
        constructor
        · intro beyond
          exact ⟨event, List.mem_append_right _ (List.mem_singleton_self event), latest, pressed,
            beyond⟩
        · rintro ⟨pressing, listed, time, pressedThen, beyond⟩
          have notLater : time ≤ latest := by
            rcases List.mem_append.mp listed with early | last
            · apply timesBefore latest latestTime time
              exact List.mem_filterMap.mpr
                ⟨pressing, early, pressing.time?_of_pressed _ _ pressedThen⟩
            · cases List.mem_singleton.mp last
              cases pressed.symm.trans pressedThen
              exact Nat.le_refl latest
          omega
      · have unpressed : ∀ again, event.pressed? ≠ some (key, again) :=
          fun again pressed => presses ⟨again, pressed⟩
        simp only [heldUntil_append_of_unpressed duration history event key _ unpressed]
        constructor
        · rintro ⟨release, ⟨held, _alive⟩, beyond⟩
          obtain ⟨pressing, early, rest⟩ := before.mp ⟨release, held, beyond⟩
          exact ⟨pressing, List.mem_append_left _ early, rest⟩
        · rintro ⟨pressing, listed, time, pressed, beyond⟩
          rcases List.mem_append.mp listed with early | last
          · obtain ⟨release, held, outlasts⟩ := before.mpr ⟨pressing, early, time, pressed, beyond⟩
            refine ⟨release, ⟨held, ?_⟩, outlasts⟩
            intro expired expires
            have timed := event.time?_of_expiry expired expires
            have notLater := past.2 expired (by simp [timed])
            exact Nat.lt_of_le_of_lt notLater outlasts
          · cases List.mem_singleton.mp last
            exact absurd pressed (unpressed time)

/-! ### Operations of a hold -/

theorem isDown_releaseAll (entries : List (Nat × Nat)) (keyboard : Keyboard) (asked : Nat) :
    (entries.foldl (fun keyboard entry => keyboard.release entry.1) keyboard).isDown asked = true ↔
      keyboard.isDown asked = true ∧ ∀ entry ∈ entries, keyOf entry.1 ≠ keyOf asked := by
  induction entries generalizing keyboard with
  | nil => simp
  | cons entry rest ih =>
      rw [List.foldl_cons, ih, Keyboard.release, Keyboard.isDown_setKey, List.forall_mem_cons]
      by_cases same : keyOf entry.1 = keyOf asked <;> simp [same]

theorem pendingPress_releaseAll (entries : List (Nat × Nat)) (keyboard : Keyboard) :
    (entries.foldl (fun keyboard entry => keyboard.release entry.1) keyboard).pendingPress =
      keyboard.pendingPress := by
  induction entries generalizing keyboard with
  | nil => rfl
  | cons entry rest ih => rw [List.foldl_cons, ih, Keyboard.pendingPress_release]

theorem keyOf_eq_iff (number : Nat) (key : Nibble) (named : number < 16) :
    keyOf number = keyOf key.val ↔ number = key.val := by
  rw [keyOf_val, Fin.ext_iff]
  change number % 16 = key.val ↔ number = key.val
  rw [Nat.mod_eq_of_lt named]

namespace KeyHold

theorem isHeld_iff (hold : KeyHold) (key : Nat) :
    hold.isHeld key = true ↔ ∃ release, (key, release) ∈ hold.held := by
  unfold isHeld
  rw [List.any_eq_true]
  constructor
  · rintro ⟨⟨held, release⟩, listed, same⟩
    cases eq_of_beq same
    exact ⟨release, listed⟩
  · rintro ⟨release, listed⟩
    exact ⟨(key, release), listed, beq_self_eq_true key⟩

theorem press_of_held (hold : KeyHold) (key now : Nat) (held : hold.isHeld key = true) :
    hold.press key now = hold.extend key now := by
  unfold press
  rw [if_pos held]

theorem press_of_unheld (hold : KeyHold) (key now : Nat) (unheld : hold.isHeld key = false) :
    hold.press key now =
      { hold with
        keyboard := hold.keyboard.press key
        held := (key, hold.releaseTime now) :: hold.held } := by
  unfold press
  rw [if_neg (by rw [unheld]; exact Bool.false_ne_true)]

theorem mem_held_press (hold : KeyHold) (key now other release : Nat) :
    (other, release) ∈ (hold.press key now).held ↔
      if other = key then release = hold.releaseTime now else (other, release) ∈ hold.held := by
  cases held : hold.isHeld key with
  | true =>
      obtain ⟨earlier, listed⟩ := (hold.isHeld_iff key).mp held
      rw [hold.press_of_held key now held, extend, List.mem_map]
      constructor
      · rintro ⟨⟨entryKey, entryRelease⟩, among, same⟩
        by_cases pressed : entryKey = key
        · rw [if_pos pressed] at same
          cases same
          rw [if_pos rfl]
        · rw [if_neg pressed] at same
          cases same
          rw [if_neg pressed]
          exact among
      · by_cases same : other = key
        · rw [if_pos same, same]
          rintro rfl
          exact ⟨(key, earlier), listed, if_pos rfl⟩
        · rw [if_neg same]
          intro among
          exact ⟨(other, release), among, if_neg same⟩
  | false =>
      have absent : ∀ listed, (key, listed) ∉ hold.held := by
        intro listed among
        rw [(hold.isHeld_iff key).mpr ⟨listed, among⟩] at held
        cases held
      rw [hold.press_of_unheld key now held, List.mem_cons, Prod.mk.injEq]
      by_cases same : other = key
      · rw [if_pos same, same]
        simp only [true_and, or_iff_left (absent release)]
      · rw [if_neg same]
        simp only [same, false_and, false_or]

theorem keys_press (hold : KeyHold) (key now : Nat) :
    (hold.press key now).held.map Prod.fst =
      if hold.isHeld key then hold.held.map Prod.fst else key :: hold.held.map Prod.fst := by
  cases held : hold.isHeld key with
  | true =>
      rw [hold.press_of_held key now held, if_pos rfl, extend, List.map_map]
      apply List.map_congr_left
      rintro ⟨entryKey, entryRelease⟩ _listed
      by_cases same : entryKey = key <;> simp [same]
  | false =>
      rw [hold.press_of_unheld key now held]
      rfl

theorem mem_held_releaseExpired (hold : KeyHold) (now key release : Nat) :
    (key, release) ∈ (hold.releaseExpired now).held ↔
      (key, release) ∈ hold.held ∧ now < release := by
  unfold releaseExpired
  rw [List.mem_filter, decide_eq_true_eq]

theorem isDown_releaseExpired (hold : KeyHold) (now asked : Nat) :
    (hold.releaseExpired now).keyboard.isDown asked = true ↔
      hold.keyboard.isDown asked = true ∧
        ∀ entry ∈ hold.held, entry.2 ≤ now → keyOf entry.1 ≠ keyOf asked := by
  unfold releaseExpired
  simp only [isDown_releaseAll, List.mem_filter, decide_eq_true_eq, and_imp]

theorem pendingPress_releaseExpired (hold : KeyHold) (now : Nat) :
    (hold.releaseExpired now).keyboard.pendingPress = hold.keyboard.pendingPress :=
  pendingPress_releaseAll _ _

theorem handle_of_stops (hold : KeyHold) (key : TerminalKey) (control : Bool) (now : Nat)
    (stops : key.stops control = true) :
    hold.handle key control now = { hold with stopped := true } := by
  unfold handle
  rw [if_pos (by simpa [TerminalKey.stops] using stops)]

theorem handle_of_other (hold : KeyHold) (key : TerminalKey) (control : Bool) (now : Nat)
    (other : key.stops control = false) :
    hold.handle key control now =
      match key.machineKey? with
      | some number => hold.press number.val now
      | none => hold := by
  have goesOn : ¬ (key = .escape ∨ (key = .character 'c' ∧ control = true)) := by
    simpa [TerminalKey.stops] using other
  cases mapped : key.machineKey? <;> simp only [handle, if_neg goesOn, mapped]

theorem stopped_press (hold : KeyHold) (key now : Nat) :
    (hold.press key now).stopped = hold.stopped := by
  unfold press
  split <;> rfl

theorem ticks_press (hold : KeyHold) (key now : Nat) :
    (hold.press key now).ticksPerMillisecond = hold.ticksPerMillisecond := by
  unfold press
  split <;> rfl

theorem happen_cases (hold : KeyHold) (event : HoldEvent) :
    (∃ key now, event.pressed? = some (key, now) ∧ event.stops = false ∧
      hold.happen event = hold.press key.val now) ∨
    (∃ now, event = .expire now) ∨
    (event.pressed? = none ∧ event.expiry? = none ∧
      ∃ pending, hold.happen event =
        { hold with
          keyboard := { hold.keyboard with pendingPress := pending }
          stopped := hold.stopped || event.stops }) := by
  cases event with
  | press key now => exact Or.inl ⟨key, now, rfl, rfl, rfl⟩
  | expire now => exact Or.inr (Or.inl ⟨now, rfl⟩)
  | take => exact Or.inr (Or.inr ⟨rfl, rfl, none, by simp [happen, withoutPress,
      Keyboard.withoutPress, HoldEvent.stops]⟩)
  | typed key control now =>
      cases stops : key.stops control with
      | true =>
          refine Or.inr (Or.inr ⟨?_, rfl, hold.keyboard.pendingPress, ?_⟩)
          · simp [HoldEvent.pressed?, stops]
          · simp [happen, hold.handle_of_stops key control now stops, HoldEvent.stops, stops]
      | false =>
          cases mapped : key.machineKey? with
          | some number =>
              refine Or.inl ⟨number, now, ?_, stops, ?_⟩
              · simp [HoldEvent.pressed?, stops, mapped]
              · simp [happen, hold.handle_of_other key control now stops, mapped]
          | none =>
              refine Or.inr (Or.inr ⟨?_, rfl, hold.keyboard.pendingPress, ?_⟩)
              · simp [HoldEvent.pressed?, stops, mapped]
              · simp [happen, hold.handle_of_other key control now stops, HoldEvent.stops, stops,
                  mapped]

/-! ### The holds of a history -/

/-- What a hold is after a history. -/
structure Follows (duration : Nat) (history : List HoldEvent) (hold : KeyHold) : Prop where
  lasts : holdMilliseconds * hold.ticksPerMillisecond = duration
  distinct : (hold.held.map Prod.fst).Nodup
  named : ∀ entry ∈ hold.held, entry.1 < 16
  held : ∀ (key : Nibble) (release : Nat),
    (key.val, release) ∈ hold.held ↔ HeldUntil duration history key release
  down : ∀ key : Nibble,
    hold.keyboard.isDown key.val = true ↔ ∃ release, (key.val, release) ∈ hold.held
  stopped : hold.stopped = true ↔ ∃ event ∈ history, event.stops = true

theorem exists_stops_append_iff (history : List HoldEvent) (event : HoldEvent) :
    (∃ happened ∈ history ++ [event], happened.stops = true) ↔
      (∃ happened ∈ history, happened.stops = true) ∨ event.stops = true := by
  constructor
  · rintro ⟨happened, listed, stops⟩
    rcases List.mem_append.mp listed with early | last
    · exact Or.inl ⟨happened, early, stops⟩
    · cases List.mem_singleton.mp last
      exact Or.inr stops
  · rintro (⟨happened, early, stops⟩ | stops)
    · exact ⟨happened, List.mem_append_left _ early, stops⟩
    · exact ⟨event, List.mem_append_right _ (List.mem_singleton_self event), stops⟩

namespace Follows

variable {duration : Nat} {history : List HoldEvent} {hold : KeyHold}

theorem start (ticks : Nat) :
    (startAt ticks .idle).Follows (holdMilliseconds * ticks) [] where
  lasts := rfl
  distinct := List.nodup_nil
  named := List.forall_mem_nil _
  held := by
    intro key release
    constructor
    · intro listed
      cases listed
    · intro held
      exact absurd held (not_heldUntil_nil _ key release)
  down := by
    intro key
    have up : Keyboard.idle.isDown key.val = false := by
      simp [Keyboard.idle, Keyboard.isDown]
    constructor
    · intro down
      cases up.symm.trans down
    · rintro ⟨release, listed⟩
      cases listed
  stopped := by
    constructor
    · intro stopped
      cases stopped
    · rintro ⟨event, listed, _stops⟩
      cases listed

theorem press (follows : hold.Follows duration history) (event : HoldEvent) (key : Nibble)
    (now : Nat) (pressed : event.pressed? = some (key, now)) (goesOn : event.stops = false) :
    (hold.press key.val now).Follows duration (history ++ [event]) where
  lasts := by
    rw [ticks_press]
    exact follows.lasts
  distinct := by
    rw [keys_press]
    cases held : hold.isHeld key.val with
    | true => exact follows.distinct
    | false =>
        refine List.nodup_cons.mpr ⟨?_, follows.distinct⟩
        intro listed
        obtain ⟨⟨other, release⟩, among, same⟩ := List.mem_map.mp listed
        cases same
        rw [(hold.isHeld_iff _).mpr ⟨release, among⟩] at held
        cases held
  named := by
    rintro ⟨other, release⟩ listed
    rw [mem_held_press] at listed
    by_cases same : other = key.val
    · rw [same]
      exact key.isLt
    · rw [if_neg same] at listed
      exact follows.named _ listed
  held := by
    intro other release
    rw [mem_held_press, releaseTime, follows.lasts]
    by_cases same : other = key
    · subst other
      rw [if_pos rfl, heldUntil_append_of_pressed duration history event key release now pressed]
    · have unpressed : ∀ again, event.pressed? ≠ some (other, again) := by
        intro again
        rw [pressed]
        simp [Ne.symm same]
      rw [if_neg (Fin.val_ne_of_ne same), follows.held other release,
        heldUntil_append_of_unpressed duration history event other release unpressed,
        event.expiry?_of_pressed key now pressed]
      simp
  down := by
    intro other
    simp only [mem_held_press, ← Fin.ext_iff]
    by_cases same : other = key
    · subst other
      simp only [if_true, exists_eq, iff_true]
      cases held : hold.isHeld key.val with
      | true =>
          rw [hold.press_of_held key.val now held]
          exact (follows.down key).mpr ((hold.isHeld_iff key.val).mp held)
      | false =>
          rw [hold.press_of_unheld key.val now held, Keyboard.press, Keyboard.isDown_setKey,
            if_pos rfl]
    · simp only [if_neg same]
      rw [← follows.down other]
      cases held : hold.isHeld key.val with
      | true => rw [hold.press_of_held key.val now held, extend]
      | false =>
          have apart : keyOf key.val ≠ keyOf other.val := by
            rw [Ne, keyOf_eq_iff key.val other key.isLt, ← Fin.ext_iff]
            exact Ne.symm same
          rw [hold.press_of_unheld key.val now held, Keyboard.press, Keyboard.isDown_setKey,
            if_neg apart]
  stopped := by
    rw [stopped_press, exists_stops_append_iff, follows.stopped, goesOn]
    simp

theorem expire (follows : hold.Follows duration history) (now : Nat) :
    (hold.releaseExpired now).Follows duration (history ++ [.expire now]) where
  lasts := follows.lasts
  distinct := follows.distinct.sublist (List.filter_sublist.map Prod.fst)
  named := by
    rintro ⟨key, release⟩ listed
    exact follows.named _ ((hold.mem_held_releaseExpired now key release).mp listed).1
  held := by
    intro key release
    rw [mem_held_releaseExpired, heldUntil_append_iff, follows.held]
    simp [HoldEvent.pressed?, HoldEvent.expiry?]
  down := by
    intro key
    simp only [isDown_releaseExpired, mem_held_releaseExpired]
    rw [follows.down key]
    constructor
    · rintro ⟨⟨release, listed⟩, kept⟩
      refine ⟨release, listed, ?_⟩
      apply Nat.lt_of_not_le
      intro expired
      exact kept _ listed expired rfl
    · rintro ⟨release, listed, alive⟩
      refine ⟨⟨release, listed⟩, ?_⟩
      rintro ⟨other, otherRelease⟩ among expired same
      -- A key has one entry, so the one that expired is of another key.
      have sameKey := (keyOf_eq_iff other key (follows.named _ among)).mp same
      have sameEntry := List.inj_on_of_nodup_map follows.distinct among listed sameKey
      cases sameEntry
      exact absurd alive (Nat.not_lt_of_le expired)
  stopped := by
    rw [exists_stops_append_iff, ← follows.stopped]
    simp [HoldEvent.stops, releaseExpired]

theorem happen (follows : hold.Follows duration history) (event : HoldEvent) :
    (hold.happen event).Follows duration (history ++ [event]) := by
  rcases hold.happen_cases event with
    ⟨key, now, pressed, goesOn, same⟩ | ⟨now, rfl⟩ | ⟨unpressed, alive, pending, same⟩
  · rw [same]
    exact follows.press event key now pressed goesOn
  · exact follows.expire now
  · rw [same]
    refine ⟨follows.lasts, follows.distinct, follows.named, ?_, follows.down, ?_⟩
    · intro key release
      rw [heldUntil_append_iff, unpressed, alive]
      simpa using follows.held key release
    · rw [exists_stops_append_iff, ← follows.stopped]
      exact Bool.or_eq_true_iff

theorem reordered (follows : hold.Follows duration history) (visited : List (Nat × Nat))
    (same : visited.Perm hold.held) :
    ({ hold with held := visited } : KeyHold).Follows duration history where
  lasts := follows.lasts
  distinct := (same.map Prod.fst).nodup_iff.mpr follows.distinct
  named := fun entry listed => follows.named entry (same.mem_iff.mp listed)
  held := fun key release => same.mem_iff.trans (follows.held key release)
  down := by
    intro key
    rw [follows.down key]
    simp only [same.mem_iff]
  stopped := follows.stopped

end Follows

theorem Becomes.follows {ticks : Nat} {history : List HoldEvent} {reached : KeyHold}
    (becomes : (startAt ticks .idle).Becomes history reached) :
    reached.Follows (holdMilliseconds * ticks) history := by
  induction becomes with
  | start => exact .start ticks
  | happened history reached event _ ih => exact ih.happen event
  | reordered history reached visited _ same ih => exact ih.reordered visited same

/-! ### The order of the entries -/

/-- Two holds that differ in no more than the order of their entries, and in the change
that the keyboard saw last. -/
structure Alike (left right : KeyHold) : Prop where
  held : left.held.Perm right.held
  down : ∀ key, left.keyboard.isDown key = right.keyboard.isDown key
  pendingPress : left.keyboard.pendingPress = right.keyboard.pendingPress
  stopped : left.stopped = right.stopped
  ticks : left.ticksPerMillisecond = right.ticksPerMillisecond

namespace Alike

variable {left right : KeyHold}

theorem refl (hold : KeyHold) : hold.Alike hold :=
  ⟨.refl _, fun _key => rfl, rfl, rfl, rfl⟩

theorem symm (alike : left.Alike right) : right.Alike left :=
  ⟨alike.held.symm, fun key => (alike.down key).symm, alike.pendingPress.symm, alike.stopped.symm,
    alike.ticks.symm⟩

theorem trans {last : KeyHold} (first : left.Alike right) (second : right.Alike last) :
    left.Alike last :=
  ⟨first.held.trans second.held, fun key => (first.down key).trans (second.down key),
    first.pendingPress.trans second.pendingPress, first.stopped.trans second.stopped,
    first.ticks.trans second.ticks⟩

theorem press (alike : left.Alike right) (key now : Nat) :
    (left.press key now).Alike (right.press key now) := by
  have times : left.releaseTime now = right.releaseTime now := by
    unfold releaseTime
    rw [alike.ticks]
  have same : left.isHeld key = right.isHeld key := alike.held.any_eq
  cases held : right.isHeld key with
  | true =>
      rw [press_of_held _ key now (same.trans held), press_of_held _ key now held, extend, extend,
        times]
      exact ⟨alike.held.map _, alike.down, alike.pendingPress, alike.stopped, alike.ticks⟩
  | false =>
      rw [press_of_unheld _ key now (same.trans held), press_of_unheld _ key now held, times]
      refine ⟨alike.held.cons _, ?_, ?_, alike.stopped, alike.ticks⟩
      · intro asked
        simp only [Keyboard.press, Keyboard.isDown_setKey, alike.down asked]
      · simp only [Keyboard.press, Keyboard.pendingPress_setKey, alike.down key,
          alike.pendingPress]

theorem releaseExpired (alike : left.Alike right) (now : Nat) :
    (left.releaseExpired now).Alike (right.releaseExpired now) := by
  refine ⟨alike.held.filter _, ?_, ?_, alike.stopped, alike.ticks⟩
  · intro asked
    rw [Bool.eq_iff_iff, isDown_releaseExpired, isDown_releaseExpired, alike.down asked]
    simp only [alike.held.mem_iff]
  · rw [pendingPress_releaseExpired, pendingPress_releaseExpired, alike.pendingPress]

theorem happen (alike : left.Alike right) (event : HoldEvent) :
    (left.happen event).Alike (right.happen event) := by
  cases event with
  | press key now => exact alike.press key.val now
  | expire now => exact alike.releaseExpired now
  | take => exact ⟨alike.held, alike.down, rfl, alike.stopped, alike.ticks⟩
  | typed key control now =>
      change (left.handle key control now).Alike (right.handle key control now)
      cases stops : key.stops control with
      | true =>
          rw [handle_of_stops _ key control now stops, handle_of_stops _ key control now stops]
          exact ⟨alike.held, alike.down, alike.pendingPress, rfl, alike.ticks⟩
      | false =>
          rw [handle_of_other _ key control now stops, handle_of_other _ key control now stops]
          cases key.machineKey? with
          | none => exact alike
          | some number => exact alike.press number.val now

end Alike

/-- What a hold becomes if its entries stay in the order they were put in. -/
def after (hold : KeyHold) (history : List HoldEvent) : KeyHold :=
  history.foldl happen hold

theorem becomes_after (hold : KeyHold) (history : List HoldEvent) :
    hold.Becomes history (hold.after history) := by
  induction history using List.reverseRecOn with
  | nil => exact .start
  | append_singleton earlier event ih =>
      rw [after, List.foldl_append]
      exact .happened earlier _ event ih

theorem Becomes.alike {first reached : KeyHold} {history : List HoldEvent}
    (becomes : first.Becomes history reached) : (first.after history).Alike reached := by
  induction becomes with
  | start => exact .refl first
  | happened history reached event _ ih =>
      rw [after, List.foldl_append]
      exact ih.happen event
  | reordered history reached visited _ same ih =>
      exact ih.trans ⟨same.symm, fun _key => rfl, rfl, rfl, rfl⟩

/-- The keys of a terminal are held as long as their presses last. Whatever happens to a
hold with all keys up, at times in order and with its entries visited in any order, the
keys that are down are those that are held; a key is held from a press until an expiry
that its latest press does not outlast, so that right after an expiry a key is down
exactly if one of its presses lasts longer. A press of a held key moves its time and
leaves the keyboard alone; any other press is pending from then on. Letting keys go
neither makes nor takes a press. The stop is asked for by the keys that mean it, for
ever, and these change nothing else. -/
theorem held_keys_follow_presses (ticks : Nat) (history : List HoldEvent)
    (ordered : InOrder history) (reached : KeyHold)
    (becomes : (startAt ticks .idle).Becomes history reached) :
    let duration := 150 * ticks
    (∀ key : Nibble,
      reached.keyboard.isDown key.val = true ↔ ∃ release, (key.val, release) ∈ reached.held) ∧
    ((reached.held.map Prod.fst).Nodup ∧ ∀ entry ∈ reached.held, entry.1 < 16) ∧
    (∀ (key : Nibble) (release : Nat),
      (key.val, release) ∈ reached.held ↔ HeldUntil duration history key release) ∧
    (∀ now, (∀ time ∈ history.filterMap HoldEvent.time?, time ≤ now) → ∀ key : Nibble,
      (reached.releaseExpired now).keyboard.isDown key.val = true ↔
        ∃ event ∈ history, ∃ pressed, event.pressed? = some (key, pressed) ∧
          now < pressed + duration) ∧
    (∀ (key : Nibble) (now : Nat),
      let next := reached.press key.val now
      (∀ other release, (other, release) ∈ next.held ↔
        if other = key.val then release = now + duration else (other, release) ∈ reached.held) ∧
      (reached.isHeld key.val = true → next.keyboard = reached.keyboard) ∧
      (reached.isHeld key.val = false →
        next.keyboard = reached.keyboard.press key.val ∧
          next.keyboard.pendingPress = some key)) ∧
    (∀ now, (reached.releaseExpired now).keyboard.pendingPress =
      reached.keyboard.pendingPress) ∧
    (∀ other, (startAt ticks .idle).Becomes history other → reached.Alike other) ∧
    (reached.stopped = true ↔ ∃ event ∈ history, event.stops = true) ∧
    ∀ key control now, key.stops control = true →
      reached.handle key control now = { reached with stopped := true } := by
  intro duration
  have follows := becomes.follows
  refine ⟨follows.down, ⟨follows.distinct, follows.named⟩, follows.held, ?_, ?_,
    reached.pendingPress_releaseExpired, ?_, follows.stopped, reached.handle_of_stops⟩
  · intro now past key
    rw [(follows.expire now).down key, ← heldBeyond_iff duration now history key ordered past]
    simp only [mem_held_releaseExpired, follows.held]
    rfl
  · intro key now next
    refine ⟨?_, ?_, ?_⟩
    · intro other release
      rw [reached.mem_held_press, releaseTime, follows.lasts]
      rfl
    · intro held
      rw [show next = _ from reached.press_of_held key.val now held, extend]
    · intro unheld
      have up : reached.keyboard.isDown key.val = false := by
        rw [Bool.eq_false_iff, Ne, follows.down, ← isHeld_iff, unheld]
        exact Bool.false_ne_true
      rw [show next = _ from reached.press_of_unheld key.val now unheld]
      refine ⟨rfl, ?_⟩
      change (reached.keyboard.press key.val).pendingPress = some key
      rw [Keyboard.press, Keyboard.pendingPress_setKey, if_pos ⟨up, rfl⟩]
      exact congrArg some (keyOf_val key)
  · intro other becomesOther
    exact becomes.alike.symm.trans becomesOther.alike

/-- Key `5` is pressed again while it is held, so an expiry at the end of its first hold
leaves it down and one at the end of its second does not. Another key is held beside it,
and the two entries may be visited the other way round. -/
theorem second_press_outlasts_first_hold :
    let history := [.press 5 0, .typed (.character 'W') false 75, .press 7 75, .take, .expire 150]
    let reached := (startAt 1 .idle).after history
    let turned : KeyHold := { reached with held := reached.held.reverse }
    InOrder history ∧ (startAt 1 .idle).Becomes history turned ∧
      turned.held = [(5, 225), (7, 225)] ∧
      (turned.releaseExpired 224).keyboard.isDown 5 = true ∧
      (turned.releaseExpired 225).keyboard.isDown 5 = false ∧
      (turned.press 5 180).keyboard.pendingPress = none ∧ reached.Alike turned := by
  intro history reached turned
  have ordered : InOrder history := by
    unfold InOrder
    decide
  have direct := (startAt 1 .idle).becomes_after history
  have becomes : (startAt 1 .idle).Becomes history turned :=
    .reordered history reached _ direct reached.held.reverse_perm
  have entries : turned.held = [(5, 225), (7, 225)] := by decide +kernel
  have taken : turned.keyboard.pendingPress = none := by decide +kernel
  have past : ∀ time ∈ history.filterMap HoldEvent.time?, time ≤ 224 := by decide
  obtain ⟨_down, _entries, _held, atExpiry, atPress, _pending, sameAs, _stopped, _stops⟩ :=
    held_keys_follow_presses 1 history ordered turned becomes
  refine ⟨ordered, becomes, entries, ?_, ?_, ?_, ?_⟩
  · refine (atExpiry 224 past 5).mpr ⟨.typed (.character 'W') false 75, ?_, 75, ?_, ?_⟩
    · decide
    · decide
    · decide
  · rw [Bool.eq_false_iff]
    intro down
    obtain ⟨event, listed, pressed, pressing, lasts⟩ := (atExpiry 225
      (fun time listed => Nat.le_succ_of_le (past time listed)) 5).mp down
    have times : ∀ event ∈ history, event.pressed?.all (fun press => press.2 ≤ 75) = true := by
      decide
    have early := times event listed
    rw [pressing, Option.all_some, decide_eq_true_eq] at early
    change pressed ≤ 75 at early
    omega
  · have held : turned.isHeld 5 = true := (turned.isHeld_iff 5).mpr ⟨225, by simp [entries]⟩
    exact (congrArg Keyboard.pendingPress ((atPress 5 180).2.1 held)).trans taken
  · exact (sameAs reached direct).symm

end KeyHold

end Chip8
