import Rejoinder.Proofs.Engine.Frame

/-!
# Warnings and errors

What an engine writes to its log are debug messages, which a bot variable switches on and off, and
warnings and errors, which only its settings can silence. `Engine.Warns` tells the latter apart: it
says which warnings and errors have been written from one engine to another, in order, whatever
debug messages stand between them. What is written one after the other adds up (`Warns.trans`).
-/

set_option autoImplicit false

namespace Rejoinder

/-- Whether an event is a warning or an error. -/
def Event.isLoud (event : Event) : Bool := event.level != .debug

namespace Engine

/-- The log of the later engine goes on from that of the earlier one with these warnings and errors
and with nothing else but debug messages. -/
def Warns (earlier later : Engine) (events : List Event) : Prop :=
  ∃ written, later.events = earlier.events ++ written ∧ written.filter Event.isLoud = events

section Warns

variable {e e' e'' : Engine} {events events' : List Event}

/-- Where nothing is written, nothing counts. -/
theorem warns_of_journal_eq (h : e'.journal = e.journal) : e.Warns e' [] :=
  ⟨[], by rw [Engine.events, Engine.events, h, List.append_nil], rfl⟩

/-- Warnings and errors of two stretches of a log stand one after the other. -/
theorem Warns.trans (h : e.Warns e' events) (h' : e'.Warns e'' events') :
    e.Warns e'' (events ++ events') := by
  obtain ⟨written, hevents, hloud⟩ := h
  obtain ⟨written', hevents', hloud'⟩ := h'
  refine ⟨written ++ written', ?_, ?_⟩
  · rw [hevents', hevents, List.append_assoc]
  · rw [List.filter_append, hloud, hloud']

/-- An event is the last one of the log, or it is not written. -/
theorem events_emit (event : Event) (e : Engine) :
    (e.emit event).events = e.events ++ if e.writes event.level then [event] else [] := by
  unfold emit
  split
  · simp [Engine.events]
  · simp

/-- An event counts if it is a warning or an error and the settings do not silence it. -/
theorem warns_emit (event : Event) (e : Engine) :
    e.Warns (e.emit event) ([event].filter fun event => event.isLoud && e.config.errorLog) := by
  refine ⟨_, events_emit event e, ?_⟩
  cases hlevel : event.level with
  | debug =>
    split
    · simp [Event.isLoud, hlevel]
    · simp [Event.isLoud, hlevel]
  | warn | error =>
    cases herrors : e.config.errorLog <;> simp [writes, Event.isLoud, hlevel, herrors]

/-- Debug messages do not count. -/
theorem warns_emit_debug (event : Event) (h : event.level = .debug) (e : Engine) :
    e.Warns (e.emit event) [] := by
  have hwarns := warns_emit event e
  simpa [Event.isLoud, h] using hwarns

/-- Warnings and errors are written if the settings say so. -/
theorem warns_emit_loud (event : Event) (h : event.level ≠ .debug) (e : Engine) :
    e.Warns (e.emit event) (if e.config.errorLog then [event] else []) := by
  have hwarns := warns_emit event e
  simpa [Event.isLoud, h, List.filter_cons] using hwarns

end Warns

end Engine

end Rejoinder
