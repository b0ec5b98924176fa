import FeatureRun.Proofs.Watch.Schedule
import Mathlib.Data.List.Basic
import Mathlib.Data.List.Induction

/-!
# What is pending, told from the calls

A schedule is kept by calls, one after another, with whatever times the clock shows: it may stand
still or go back. What is pending, in which order and until when is told from the calls and their
answers alone.

* `Call`, `perform`, `replay`: the calls, and what a sequence of them leads to.
* `events`, `lastEvent?`: what has happened to one key.
* `armed`: the calls that have made a key pending and after which nothing has happened to it.
* `told_of_replay`: the schedule is what `armed` says, and no key is due twice for one call.
-/
set_option autoImplicit false

namespace FeatureRun.Schedule

/-- A call to a schedule; `clock` and `now` are the time that it goes by. -/
inductive Call where
  | add (clock : Float) (key : String)
  | cancel (key : String)
  | clear
  | popDue (now : Float)

inductive Answer where
  | done
  /-- Whether a cancelled key was pending. -/
  | cancelled (wasPending : Bool)
  /-- The keys that were due. -/
  | due (keys : List String)

/-- Carries out a call: its answer, and the schedule that it leaves. -/
def perform (s : Schedule) : Call → Answer × Schedule
  | .add clock key => (.done, s.add clock key)
  | .cancel key => (.cancelled (s.isPending key), s.cancel key)
  | .clear => (.done, s.clear)
  | .popDue now => (.due (s.due now), s.dropDue now)

/-- Calls and their answers, the first call first. -/
abbrev History := List (Call × Answer)

/-- Carries out one more call, and remembers it. -/
def next (state : History × Schedule) (c : Call) : History × Schedule :=
  (state.1 ++ [(c, (state.2.perform c).1)], (state.2.perform c).2)

/-- Carries out calls one after another, beginning with nothing pending. -/
def replay (delay : Float) (calls : List Call) : History × Schedule :=
  calls.foldl next ([], empty delay)

/-! ## What a history says -/

/-- What can happen to a key. -/
inductive Event where
  | scheduled (clock : Float)
  | cancelled
  | cleared
  /-- The key was one of those that were due. -/
  | returned

def Event.isScheduled : Event → Bool
  | .scheduled _ => true
  | _ => false

def Event.isReturned : Event → Bool
  | .returned => true
  | _ => false

/-- What a call and its answer mean for a key. -/
def eventOf? (key : String) : Call × Answer → Option Event
  | (.add clock k, _) => if k = key then some (.scheduled clock) else none
  | (.cancel k, _) => if k = key then some .cancelled else none
  | (.clear, _) => some .cleared
  | (.popDue _, .due keys) => if key ∈ keys then some .returned else none
  | (.popDue _, _) => none

/-- What has happened to a key, the first event first. -/
def events (key : String) (h : History) : List Event := h.filterMap (eventOf? key)

def lastEvent? (key : String) (h : History) : Option Event := (events key h).getLast?

/-- The calls that have scheduled a key to which nothing has happened since, in the order of the
calls: the key, and the time of the call. -/
def armed : History → List (String × Float)
  | [] => []
  | (.add clock key, _) :: later =>
    if (events key later).isEmpty then (key, clock) :: armed later else armed later
  | _ :: later => armed later

theorem Event.eq_returned {e : Event} (h : e.isReturned = true) : e = .returned := by
  cases e <;> first | rfl | nomatch h

variable {h : History} {key : String} {clock delay : Float} {calls : List Call}

theorem events_concat (key : String) (h : History) (x : Call × Answer) :
    events key (h ++ [x]) = events key h ++ (eventOf? key x).toList := by
  rw [events, List.filterMap_append]
  cases hx : eventOf? key x with
  | none => simp [events, hx]
  | some e => simp [events, hx]

theorem lastEvent?_concat (key : String) (h : History) (x : Call × Answer) :
    lastEvent? key (h ++ [x]) = (eventOf? key x).or (lastEvent? key h) := by
  rw [lastEvent?, events_concat]
  cases eventOf? key x with
  | none => simp [lastEvent?]
  | some e => simp

/-- One more call takes away the keys to which it does something, and brings a key that it
schedules. -/
theorem armed_concat (h : History) (x : Call × Answer) :
    armed (h ++ [x]) = (armed h).filter (fun e => (eventOf? e.1 x).isNone) ++ armed [x] := by
  induction h with
  | nil => rfl
  | cons y later ih =>
    obtain ⟨c, answer⟩ := y
    cases c with
    | add clock key =>
      simp only [List.cons_append, armed, events_concat]
      cases hlater : events key later with
      | nil => cases hx : eventOf? key x <;> simp [hx, ih]
      | cons e es => simpa using ih
    | cancel | clear | popDue => simpa only [List.cons_append, armed] using ih

/-- A key is armed if it was scheduled and nothing has happened to it since. -/
theorem mem_armed_iff : (key, clock) ∈ armed h ↔ lastEvent? key h = some (.scheduled clock) := by
  induction h using List.reverseRecOn with
  | nil => simp [armed, lastEvent?, events]
  | append_singleton h x ih =>
    rw [armed_concat, lastEvent?_concat, List.mem_append, List.mem_filter, ih]
    obtain ⟨c, answer⟩ := x
    cases c with
    | add time k =>
      by_cases hk : k = key
      · simp [armed, events, eventOf?, hk, eq_comm]
      · simp [armed, events, eventOf?, hk, Ne.symm hk]
    | cancel k => by_cases hk : k = key <;> simp [armed, eventOf?, hk]
    | clear => simp [armed, eventOf?]
    | popDue now =>
      cases hx : eventOf? key (.popDue now, answer) with
      | none => simp [armed]
      | some e =>
        have he : e = .returned := by
          cases answer <;> simp_all [eventOf?]
        simp [armed, he]

/-! ## What the calls lead to -/

theorem replay_concat (delay : Float) (calls : List Call) (c : Call) :
    replay delay (calls ++ [c]) = next (replay delay calls) c := List.foldl_concat ..

@[simp] theorem delay_perform (s : Schedule) (c : Call) : (s.perform c).2.delay = s.delay := by
  cases c <;> rfl

theorem entries_dropDue (s : Schedule) (now : Float) :
    (s.dropDue now).deadlines.entries =
      s.deadlines.entries.filter fun e => decide (e.1 ∉ s.due now) := by
  refine List.filter_congr fun e he => ?_
  have hdue : e.1 ∈ s.due now ↔ e.2 ≤ now := by
    simp [mem_due_iff, OrderedMap.mem_entries_iff.1 he]
  simp [hdue]

/-- What `armed_concat` says of a history, said of the deadlines. -/
theorem entries_perform (s : Schedule) (c : Call) :
    (s.perform c).2.deadlines.entries =
      s.deadlines.entries.filter (fun e => (eventOf? e.1 (c, (s.perform c).1)).isNone) ++
        (armed [(c, (s.perform c).1)]).map fun e => (e.1, e.2 + s.delay) := by
  cases c with
  | add clock key =>
    simp [perform, entries_add, armed, events, eventOf?, apply_ite Option.isNone, eq_comm]
  | cancel key =>
    simp [perform, cancel, OrderedMap.erase, armed, eventOf?, apply_ite Option.isNone, eq_comm]
  | clear => simp [perform, clear, OrderedMap.empty, armed, eventOf?]
  | popDue now => simp [perform, entries_dropDue, armed, eventOf?, apply_ite Option.isNone]

/-- The deadlines of a schedule are those of the armed calls, in their order. -/
theorem entries_replay (delay : Float) (calls : List Call) :
    (replay delay calls).2.delay = delay ∧
      (replay delay calls).2.deadlines.entries =
        (armed (replay delay calls).1).map fun e => (e.1, e.2 + delay) := by
  induction calls using List.reverseRecOn with
  | nil => exact ⟨rfl, rfl⟩
  | append_singleton calls c ih =>
    obtain ⟨hdelay, hentries⟩ := ih
    simp only [replay_concat, next, delay_perform, armed_concat, List.map_append]
    refine ⟨hdelay, ?_⟩
    rw [entries_perform, hdelay, hentries, List.filter_map]
    rfl

theorem pending_replay (delay : Float) (calls : List Call) :
    (replay delay calls).2.pending = (armed (replay delay calls).1).map Prod.fst := by
  rw [pending, OrderedMap.keys, (entries_replay delay calls).2, List.map_map]
  rfl

/-- A key is pending if being scheduled is the last that has happened to it. -/
theorem mem_pending_replay : key ∈ (replay delay calls).2.pending ↔
    ∃ clock, lastEvent? key (replay delay calls).1 = some (.scheduled clock) := by
  simp [pending_replay, mem_armed_iff]

theorem get?_replay (h : lastEvent? key (replay delay calls).1 = some (.scheduled clock)) :
    (replay delay calls).2.deadlines.get? key = some (clock + delay) := by
  rw [← OrderedMap.mem_entries_iff, (entries_replay delay calls).2]
  exact List.mem_map_of_mem (mem_armed_iff.2 h)

theorem due_replay (delay : Float) (calls : List Call) (now : Float) :
    (replay delay calls).2.due now =
      ((armed (replay delay calls).1).filter fun e => e.2 + delay ≤ now).map Prod.fst := by
  rw [due, (entries_replay delay calls).2, List.filter_map, List.map_map]
  rfl

/-! ## One return for one call -/

/-- Right before a key is returned it has been scheduled. -/
theorem scheduled_of_returned {early late : List Event}
    (h : events key (replay delay calls).1 = early ++ .returned :: late) :
    ∃ clock, early.getLast? = some (.scheduled clock) := by
  induction calls using List.reverseRecOn generalizing late with
  | nil => simp [replay, events] at h
  | append_singleton calls c ih =>
    rw [replay_concat, next, events_concat] at h
    cases hevent : eventOf? key (c, ((replay delay calls).2.perform c).1) with
    | none =>
      rw [hevent] at h
      exact ih (by simpa using h)
    | some e =>
      rw [hevent] at h
      rcases List.eq_nil_or_concat late with rfl | ⟨late, last, rfl⟩
      · -- the key is returned by the last call
        obtain ⟨hearly, he⟩ := List.append_inj' h rfl
        obtain rfl : e = .returned := by simpa using he
        rw [← hearly]
        apply mem_pending_replay.1
        cases c with
        | popDue now =>
          have hdue : key ∈ (replay delay calls).2.due now := by
            simpa [perform, eventOf?] using hevent
          exact mem_pending_of_due hdue
        | add | cancel | clear => simp [eventOf?] at hevent
      · have hfront : events key (replay delay calls).1 = early ++ .returned :: late := by
          have h' : events key (replay delay calls).1 ++ [e] =
              (early ++ .returned :: late) ++ [last] := by simpa using h
          exact (List.append_inj' h' rfl).1
        exact ih hfront

/-- Between two returns of a key it is scheduled. -/
theorem exists_scheduled_between {early gap late : List Event}
    (h : events key (replay delay calls).1 = early ++ .returned :: gap ++ .returned :: late) :
    ∃ clock, .scheduled clock ∈ gap := by
  obtain ⟨clock, hlast⟩ := scheduled_of_returned h
  refine ⟨clock, ?_⟩
  have hmem : .scheduled clock ∈ Event.returned :: gap := by
    apply List.mem_of_getLast?
    simpa [List.getLast?_append] using hlast
  simpa using hmem

/-- As long as a key is not scheduled again it is returned once at most. -/
theorem countP_isReturned_le_one {early quiet late : List Event}
    (h : events key (replay delay calls).1 = early ++ quiet ++ late)
    (hquiet : ∀ e ∈ quiet, e.isScheduled = false) : quiet.countP Event.isReturned ≤ 1 := by
  cases quiet with
  | nil => simp
  | cons first rest =>
    -- what stands right before a return in the rest is scheduled, and is not quiet
    have hrest : rest.countP Event.isReturned = 0 := by
      rw [List.countP_eq_zero]
      intro e he hreturned
      obtain rfl := Event.eq_returned hreturned
      obtain ⟨front, back, rfl⟩ := List.append_of_mem he
      have hsplit : events key (replay delay calls).1 =
          (early ++ first :: front) ++ .returned :: (back ++ late) := by simpa using h
      obtain ⟨clock, hlast⟩ := scheduled_of_returned hsplit
      have hmem : .scheduled clock ∈ first :: front := by
        apply List.mem_of_getLast?
        simpa [List.getLast?_append] using hlast
      have hscheduled := hquiet (.scheduled clock) (by grind)
      nomatch hscheduled
    rw [List.countP_cons, hrest]
    split <;> omega

/-! ## The schedule after any calls -/

/-- What a schedule is, and what it would answer, by what has happened to its keys. -/
structure Told (delay : Float) (h : History) (s : Schedule) : Prop where
  pending : ∀ key, key ∈ s.pending ↔ ∃ clock, lastEvent? key h = some (.scheduled clock)
  /-- The pending keys stand in the order in which they were last scheduled. -/
  order : s.pending = (armed h).map Prod.fst
  once : s.pending.Nodup
  deadline : ∀ key clock, lastEvent? key h = some (.scheduled clock) →
    s.deadlines.get? key = some (clock + delay)
  due : ∀ now, (s.perform (.popDue now)).1 =
    .due (((armed h).filter fun e => e.2 + delay ≤ now).map Prod.fst)
  /-- Popping leaves the keys that are not due, each with its deadline and in its place. -/
  left : ∀ now, (s.perform (.popDue now)).2.deadlines.entries =
    s.deadlines.entries.filter fun e => e.1 ∉ s.due now
  cancelled : ∀ key, (s.perform (.cancel key)).1 = .cancelled (decide (key ∈ s.pending))
  between : ∀ key early gap late,
    events key h = early ++ .returned :: gap ++ .returned :: late → ∃ clock, .scheduled clock ∈ gap
  /-- However often a key is scheduled in a row, it is returned once at most until it is scheduled
  again. -/
  burst : ∀ key early burst quiet late, events key h = early ++ burst ++ quiet ++ late →
    (∀ e ∈ burst, e.isScheduled = true) → (∀ e ∈ quiet, e.isScheduled = false) →
    (burst ++ quiet).countP Event.isReturned ≤ 1

/-- Whatever calls are made at whatever times, the schedule is what their history tells. -/
theorem told_of_replay (delay : Float) (calls : List Call) :
    Told delay (replay delay calls).1 (replay delay calls).2 where
  pending key := mem_pending_replay
  order := pending_replay delay calls
  once := (replay delay calls).2.deadlines.nodup_keys
  deadline key clock h := get?_replay h
  due now := congrArg Answer.due (due_replay delay calls now)
  left now := entries_dropDue _ now
  cancelled key := by
    have hcontains := mem_pending_iff (s := (replay delay calls).2) (k := key)
    simp [perform, isPending, OrderedMap.contains, hcontains]
  between key early gap late h := exists_scheduled_between h
  burst key early burst quiet late h hburst hquiet := by
    have hnone : burst.countP Event.isReturned = 0 := by
      rw [List.countP_eq_zero]
      intro e he hreturned
      obtain rfl := Event.eq_returned hreturned
      cases hburst _ he
    have hone := countP_isReturned_le_one h hquiet
    rw [List.countP_append]
    omega

end FeatureRun.Schedule
