import CardBattle.Table

/-!
# Logs that grow

A log is only ever added to. What a change has added is told by the actions of the new entries. The
rules read the clock again when the log has grown.
-/

namespace CardBattle

namespace Session

/-- Only entries of some actions have been added to the log. -/
def Logs (allowed : LogAction → Prop) (s s' : Session) : Prop :=
  ∃ entries : List LogEntry, s'.log = s.log ++ entries ∧ ∀ e ∈ entries, allowed e.action

namespace Logs

variable {allowed allowed' : LogAction → Prop} {s s' s'' : Session} {e : LogEntry}

theorem of_same (same : s'.log = s.log) : Logs allowed s s' :=
  ⟨[], by rw [same, List.append_nil], fun _ mem => absurd mem List.not_mem_nil⟩

theorem of_entry (log : s'.log = s.log ++ [e]) (may : allowed e.action) : Logs allowed s s' :=
  ⟨[e], log, fun _ mem => List.mem_singleton.mp mem ▸ may⟩

/-- What was added at two times has all been added since the first. -/
theorem trans (h : Logs allowed s s') (h' : Logs allowed s' s'') : Logs allowed s s'' := by
  obtain ⟨entries, log, may⟩ := h
  obtain ⟨entries', log', may'⟩ := h'
  refine ⟨entries ++ entries', by rw [log', log, List.append_assoc], ?_⟩
  intro e mem
  rcases List.mem_append.mp mem with mem | mem
  · exact may e mem
  · exact may' e mem

theorem mono (h : Logs allowed s s') (le : ∀ action, allowed action → allowed' action) :
    Logs allowed' s s' := by
  obtain ⟨entries, log, may⟩ := h
  exact ⟨entries, log, fun e mem => le e.action (may e mem)⟩

/-- An entry was there before or is of an allowed action. -/
theorem of_mem (h : Logs allowed s s') (mem : e ∈ s'.log) : e ∈ s.log ∨ allowed e.action := by
  obtain ⟨entries, log, may⟩ := h
  rw [log] at mem
  rcases List.mem_append.mp mem with old | new
  · exact Or.inl old
  · exact Or.inr (may e new)

/-- The entries of an action that is not added stay the same. -/
theorem filter_eq {action : LogAction} (h : Logs (· ≠ action) s s') :
    s'.log.filter (fun e => decide (e.action = action))
      = s.log.filter (fun e => decide (e.action = action)) := by
  obtain ⟨entries, log, other⟩ := h
  have none : entries.filter (fun e => decide (e.action = action)) = [] := by
    rw [List.filter_eq_nil_iff]
    intro e mem
    simpa using other e mem
  rw [log, List.filter_append, none, List.append_nil]

end Logs

/-! ### Readings of the clock -/

variable {s s' : Session} {entries : List LogEntry}

theorem noted_of_log (log : s'.log = s.log ++ entries)
    (calm : ∀ e ∈ entries, e.action ≠ .failure) : s'.noted = s.noted + entries.length := by
  have all : entries.countP (fun e => decide (e.action ≠ .failure)) = entries.length :=
    List.countP_eq_length.mpr fun e mem => decide_eq_true (calm e mem)
  rw [noted, log, List.countP_append, all]
  rfl

end Session

namespace Context

variable {s s' : Session} {entries : List LogEntry}

def later (ctx : Context) (s : Session) (more : Nat) : Nat :=
  ctx.clock.time (s.noted + more + 1)

/-- The time goes on by the entries made, failures apart. -/
theorem now_of_log (ctx : Context) (log : s'.log = s.log ++ entries)
    (calm : ∀ e ∈ entries, e.action ≠ .failure) : ctx.now s' = ctx.later s entries.length := by
  rw [now, later, Session.noted_of_log log calm]

theorem now_record (ctx : Context) {e : LogEntry} (calm : e.action ≠ .failure) :
    ctx.now (s.record e) = ctx.later s 1 :=
  ctx.now_of_log rfl (List.forall_mem_singleton.mpr calm)

end Context

end CardBattle
