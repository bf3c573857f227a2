import Mathlib.Logic.Basic

/-!
# Outboxes

An outbox hands items over to a carrier that takes one load at a time.  An item put
into an idle outbox is handed over at once; an item put into a busy one waits, and
when the carrier is done everything that waits is the next load.  When the carrier
fails, what waits is thrown away.

What an outbox is for is said by two facts about its runs.  As long as nothing
fails, what was handed over followed by what waits is what was put in, in order
(`handed_append_waiting`).  And whatever happens, what is handed over in a run is a
sublist of what waited at its start followed by what was put in since
(`handed_sublist`): after a failure, nothing put in before it is ever handed over.
-/

namespace Outbox

universe u

variable {α : Type u}

/-- The state of an outbox. -/
@[ext]
structure State (α : Type u) where
  /-- Everything handed over so far. -/
  handed : List α
  /-- What waits for the carrier. -/
  waiting : List α
  /-- The carrier is under way. -/
  busy : Bool
  /-- Nothing waits for an idle carrier. -/
  waiting_of_idle : busy = false → waiting = []

/-- What happens to an outbox. -/
inductive Event (α : Type u) where
  /-- An item is put in. -/
  | put (x : α)
  /-- The carrier has delivered its load. -/
  | done
  /-- The carrier has failed. -/
  | fail

namespace State

/-- An empty outbox. -/
def empty : State α := ⟨[], [], false, fun _ ↦ rfl⟩

/-- What an event does. -/
def step (o : State α) : Event α → State α
  | .put x =>
    if h : o.busy = true then
      { o with
        waiting := o.waiting ++ [x]
        waiting_of_idle := fun hf ↦ nomatch h.symm.trans hf }
    else
      { o with
        handed := o.handed ++ [x]
        busy := true
        waiting_of_idle := fun hf ↦ nomatch hf }
  | .done =>
    { handed := o.handed ++ o.waiting
      waiting := []
      busy := !o.waiting.isEmpty
      waiting_of_idle := fun _ ↦ rfl }
  | .fail => { o with waiting := [], busy := false, waiting_of_idle := fun _ ↦ rfl }

/-- Follow a list of events. -/
def run (o : State α) (es : List (Event α)) : State α := es.foldl step o

@[simp] theorem run_nil (o : State α) : o.run [] = o := rfl

@[simp] theorem run_cons (o : State α) (e : Event α) (es : List (Event α)) :
    o.run (e :: es) = (o.step e).run es := rfl

theorem run_append (o : State α) (es fs : List (Event α)) :
    o.run (es ++ fs) = (o.run es).run fs := List.foldl_append

end State

/-- The item an event puts in. -/
def Event.item : Event α → List α
  | .put x => [x]
  | .done => []
  | .fail => []

/-- The items that are put in. -/
def puts (es : List (Event α)) : List α := es.flatMap Event.item

/-- One event that is not a failure moves items from one place to the next. -/
theorem handed_append_waiting_step (o : State α) {e : Event α} (h : e ≠ .fail) :
    (o.step e).handed ++ (o.step e).waiting = o.handed ++ o.waiting ++ e.item := by
  cases e with
  | put x =>
      by_cases hb : o.busy = true
      · simp [State.step, Event.item, hb]
      · have hw := o.waiting_of_idle (Bool.not_eq_true _ ▸ hb)
        simp [State.step, Event.item, hb, hw]
  | done => simp [State.step, Event.item]
  | fail => exact absurd rfl h

/-- Without a failure, nothing is lost, duplicated or reordered. -/
theorem handed_append_waiting (o : State α) {es : List (Event α)} (h : ∀ e ∈ es, e ≠ .fail) :
    (o.run es).handed ++ (o.run es).waiting = o.handed ++ o.waiting ++ puts es := by
  induction es generalizing o with
  | nil => simp [puts]
  | cons e es ih =>
      have hrun := ih (o.step e) fun e' he' ↦ h e' (List.mem_cons_of_mem e he')
      rw [handed_append_waiting_step o (h e List.mem_cons_self)] at hrun
      simpa [puts] using hrun

/-- What one event hands over was waiting or is put in by it; so is what waits
afterwards. -/
theorem handed_step (o : State α) (e : Event α) :
    ∃ now, (o.step e).handed = o.handed ++ now ∧
      (now ++ (o.step e).waiting).Sublist (o.waiting ++ e.item) := by
  cases e with
  | put x =>
      by_cases hb : o.busy = true
      · exact ⟨[], by simp [State.step, hb], by simp [State.step, Event.item, hb]⟩
      · have hw := o.waiting_of_idle (Bool.not_eq_true _ ▸ hb)
        exact ⟨[x], by simp [State.step, hb], by simp [State.step, Event.item, hb, hw]⟩
  | done => exact ⟨o.waiting, by simp [State.step], by simp [State.step, Event.item]⟩
  | fail => exact ⟨[], by simp [State.step], by simp [State.step, Event.item]⟩

open List in
/-- What a run hands over was waiting at its start or was put in since. -/
theorem handed_sublist (o : State α) (es : List (Event α)) :
    ∃ later, (o.run es).handed = o.handed ++ later ∧ later.Sublist (o.waiting ++ puts es) := by
  induction es generalizing o with
  | nil => exact ⟨[], by simp, nil_sublist _⟩
  | cons e es ih =>
      obtain ⟨now, hnow, hsub⟩ := handed_step o e
      obtain ⟨later, hlater, hsub'⟩ := ih (o.step e)
      refine ⟨now ++ later, ?_, ?_⟩
      · rw [State.run_cons, hlater, hnow, append_assoc]
      · calc
          now ++ later <+ now ++ ((o.step e).waiting ++ puts es) :=
            (append_sublist_append_left now).mpr hsub'
          _ = now ++ (o.step e).waiting ++ puts es := (append_assoc _ _ _).symm
          _ <+ o.waiting ++ e.item ++ puts es := (append_sublist_append_right (puts es)).mpr hsub
          _ = o.waiting ++ puts (e :: es) := by simp [puts]

end Outbox
