import PelionClient.Blink.Fields
import PelionClient.Blink.Machine

/-!
# Playing a pattern

A pattern is started on an idle object that has no timer event in flight, no call fails, and the callback leaves the object
alone. Then the object is always at some of the pattern's delays (`At`): a step at a delay sends its event and toggles the
LED (`runStep_plays`), a step at the end calls back (`runStep_ends`). Between deliveries the object waits for its one event
(`Waits`), and a delivery plays the next delay, or ends the pattern, or begins it again (`deliver_next`, `deliver_end`,
`deliver_again`). So the whole of every playback is known (`playback_exact`).
-/

namespace PelionClient.Blink

open Lib

/-- The object reads the pattern `p` where the delays `ds` are left of it. -/
structure At (bits : Nat) (p : List UInt8) (ds : List Int) (s : Blinky) : Prop where
  pattern : s.pattern = some (p ++ [0])
  cursor : ∃ curr rest, s.currPattern = some curr ∧ (p ++ [0]).drop curr = rest ++ [0] ∧ 0 ∉ rest ∧ delays bits rest = ds

/-- `t` is `s` after some actions, with these events in flight. -/
structure Does (s t : Blinky) (actions : List Action) (inFlight : List Nat) : Prop where
  log : t.log = s.log ++ actions
  inFlight : t.inFlight = inFlight
  starts : t.starts = s.starts
  restart : t.restart = s.restart

/-! ## One step -/

section Steps

variable {cfg : Config} {p : List UInt8} {d : Int} {ds : List Int} {s : Blinky}

/-- The pattern from its beginning. -/
theorem at_start (hnul : 0 ∉ p) (hpattern : s.pattern = some (p ++ [0])) (hcursor : s.currPattern = some 0) (bits : Nat) :
    At bits p (delays bits p) s :=
  ⟨hpattern, 0, p, hcursor, rfl, hnul, rfl⟩

/-- The next delay is read, or the end. -/
theorem At.getNextInt {bits : Nat} (h : At bits p ds s) : ∃ delay curr,
    s.getNextInt bits = .ok (delay, { s with currPattern := some curr }) ∧
      ((delay < 0 ∧ ds = []) ∨
        (0 ≤ delay ∧ ∃ ds', ds = delay :: ds' ∧ At bits p ds' { s with currPattern := some curr })) := by
  obtain ⟨curr, rest, hcurr, hdrop, hnul, rfl⟩ := h.cursor
  have hmem : 0 ∈ rest ++ [0] := by simp
  refine ⟨(nextField bits (rest ++ [0])).1, curr + (nextField bits (rest ++ [0])).2, ?_, ?_⟩
  · simp only [Blinky.getNextInt, hcurr, h.pattern, hdrop, if_pos hmem]
  · rcases @delays_cases bits rest hnul with ⟨hneg, hnone⟩ | ⟨hpos, rest', hnul', hdrop', hds⟩
    · exact Or.inl ⟨hneg, hnone⟩
    · refine Or.inr ⟨hpos, _, hds, h.pattern, _, rest', rfl, ?_, hnul', rfl⟩
      rw [← List.drop_drop, hdrop, hdrop']

/-- **A step at a delay** plays it. -/
theorem runStep_plays (h : At cfg.longBits p (d :: ds) s) : ∃ t,
    runStep cfg (runScript cfg .done) true s = .ok (true, t) ∧ At cfg.longBits p ds t ∧
      Does s t [.schedule d, .toggleLed] (s.inFlight ++ [s.starts]) := by
  obtain ⟨delay, curr, hread, ⟨_, hnil⟩ | ⟨hpos, ds', hds, hat⟩⟩ := h.getNextInt
  · cases hnil
  · cases hds
    refine ⟨{ Blinky.send { s with currPattern := some curr } d with state := .started }, ?_,
      ⟨hat.pattern, hat.cursor⟩, rfl, rfl, rfl, rfl⟩
    simp only [runStep, hread, bind, Except.bind, playDelay, if_neg (Int.not_lt.mpr hpos), if_true]

/-- **A step at the end** calls back. -/
theorem runStep_ends (h : At cfg.longBits p [] s) : ∃ t,
    runStep cfg (runScript cfg .done) true s = .ok (false, t) ∧ t.pattern = s.pattern ∧
      Does s t [.callback] s.inFlight := by
  obtain ⟨delay, curr, hread, ⟨hneg, _⟩ | ⟨_, ds', hds, _⟩⟩ := h.getNextInt
  · refine ⟨{ s with currPattern := some curr, log := s.log ++ [.callback], state := .idle }, ?_, rfl, rfl, rfl, rfl, rfl⟩
    simp only [runStep, hread, bind, Except.bind, playDelay, if_pos hneg, runScript]
  · cases hds

end Steps

/-! ## One delivery -/

/-- A timer event of the start number `sender`, delivered where no call fails and the callback leaves the object alone. -/
def delivery (sender : Nat) : Act := .deliver sender .done .done true true

/-- The object waits for its event, with the delays `ds` to come. -/
structure Waits (cfg : Config) (p : List UInt8) (ds : List Int) (s : Blinky) : Prop where
  place : At cfg.longBits p ds s
  inFlight : s.inFlight = [s.starts]

section Deliveries

variable {cfg : Config} {p : List UInt8} {d : Int} {ds : List Int} {s : Blinky}

/-- A delivery of the event that the object waits for. -/
theorem Waits.step_eq (h : Waits cfg p ds s) : step cfg s (delivery s.starts) =
    (eventHandler cfg .done .done true true { s with inFlight := [] }).toOption := by
  have hmem : s.starts ∈ s.inFlight := h.inFlight ▸ List.mem_singleton_self _
  have herase : s.inFlight.erase s.starts = [] := by rw [h.inFlight, List.erase_cons_head]
  rw [step, if_pos (show Enabled s (delivery s.starts) from hmem)]
  simp only [delivery, act, herase]

/-- Before the end, a delivery plays the next delay. -/
theorem deliver_next (h : Waits cfg p (d :: ds) s) : ∃ t, step cfg s (delivery s.starts) = some t ∧ Waits cfg p ds t ∧
    Does s t [.schedule d, .toggleLed] [s.starts] := by
  obtain ⟨t, hrun, hat, hdoes⟩ := @runStep_plays cfg p d ds { s with inFlight := [] } ⟨h.place.pattern, h.place.cursor⟩
  refine ⟨t, ?_, ⟨hat, ?_⟩, hdoes.log, hdoes.inFlight, hdoes.starts, hdoes.restart⟩
  · rw [h.step_eq]
    simp only [eventHandler, hrun, bind, Except.bind]
    rfl
  · rw [hdoes.inFlight, hdoes.starts]
    rfl

/-- At the end, a delivery calls back, and nothing is in flight any more if the pattern is not to be restarted. -/
theorem deliver_end (h : Waits cfg p [] s) (hrestart : s.restart = false) : ∃ t,
    step cfg s (delivery s.starts) = some t ∧ Does s t [.callback] [] := by
  obtain ⟨t, hrun, _, hdoes⟩ := @runStep_ends cfg p { s with inFlight := [] } ⟨h.place.pattern, h.place.cursor⟩
  have hfalse : t.restart = false := hdoes.restart.trans hrestart
  refine ⟨t, ?_, hdoes.log, hdoes.inFlight, hdoes.starts, hdoes.restart⟩
  rw [h.step_eq]
  simp only [eventHandler, hrun, bind, Except.bind, hfalse, Bool.false_eq_true, and_false, if_false]
  rfl

/-- If it is, the first delay is played at once. -/
theorem deliver_again (h : Waits cfg p [] s) (hrestart : s.restart = true) (hnul : 0 ∉ p)
    (hds : delays cfg.longBits p = d :: ds) : ∃ t, step cfg s (delivery s.starts) = some t ∧ Waits cfg p ds t ∧
    Does s t [.callback, .schedule d, .toggleLed] [s.starts] := by
  obtain ⟨t, hrun, hpattern, hdoes⟩ := @runStep_ends cfg p { s with inFlight := [] } ⟨h.place.pattern, h.place.cursor⟩
  have htrue : t.restart = true := hdoes.restart.trans hrestart
  have hpattern' : t.pattern = some (p ++ [0]) := hpattern.trans h.place.pattern
  have hat := @at_start p { t with currPattern := some 0 } hnul hpattern' rfl cfg.longBits
  rw [hds] at hat
  obtain ⟨u, hrun', hat', hdoes'⟩ := runStep_plays hat
  have hmap : (t.pattern.map fun _ => 0) = some 0 := by rw [hpattern']; rfl
  refine ⟨u, ?_, ⟨hat', ?_⟩, ?_⟩
  · rw [h.step_eq]
    simp only [eventHandler, hrun, bind, Except.bind]
    rw [if_pos ⟨trivial, htrue⟩]
    simp only [hmap, hrun']
    rfl
  · rw [hdoes'.inFlight, hdoes'.starts, hdoes.inFlight]
    rfl
  · constructor
    · rw [hdoes'.log, hdoes.log, List.append_assoc]
      rfl
    · rw [hdoes'.inFlight, hdoes.inFlight, hdoes.starts]
      rfl
    · exact hdoes'.starts.trans hdoes.starts
    · exact hdoes'.restart.trans hdoes.restart

end Deliveries

/-! ## The playback -/

/-- A start on an idle object with nothing in flight, in which no call fails. -/
structure IdleStart where
  blinky : Blinky
  pattern : List UInt8
  restart : Bool
  handlerCreate : Int
  idle : blinky.state = .idle
  nothing : blinky.inFlight = []
  noNul : 0 ∉ pattern
  tasklet : 0 ≤ blinky.tasklet ∨ 0 ≤ handlerCreate

def IdleStart.args (p : IdleStart) : StartArgs := ⟨p.pattern, p.restart, p.handlerCreate, true, true⟩

/-- How a delay is played. -/
def played (d : Int) : List Action := [.schedule d, .toggleLed]

/-- How delay number `n` of a playback without end is played, where a pass begins with a callback if one has ended. -/
def playedAgain (ds : List Int) (n : Nat) : List Action :=
  (if 0 < n ∧ n % ds.length = 0 then [.callback] else []) ++ played (ds.getD (n % ds.length) 0)

/-- What a start that leaves the object `s`, and the deliveries after it, should do. -/
structure PlaysExactly (cfg : Config) (p : IdleStart) (s : Blinky) : Prop where
  /-- Without a delay: one callback, and nothing is in flight. -/
  none : delays cfg.longBits p.pattern = [] → s.log = p.blinky.log ++ [.callback] ∧ s.inFlight = []
  /-- With delays and without restart: one delay at the start and with each delivery, and after the last one the callback,
  with nothing in flight any more. -/
  once : delays cfg.longBits p.pattern ≠ [] → p.restart = false → ∀ n ≤ (delays cfg.longBits p.pattern).length,
    ∃ t, run (step cfg) s (List.replicate n (delivery s.starts)) = some t ∧
      t.log = p.blinky.log ++ ((delays cfg.longBits p.pattern).take (n + 1)).flatMap played ++
        (if n < (delays cfg.longBits p.pattern).length then [] else [.callback]) ∧
      t.inFlight = if n < (delays cfg.longBits p.pattern).length then [s.starts] else []
  /-- With delays and restart: one delay at the start and with each delivery, over and over. -/
  forever : delays cfg.longBits p.pattern ≠ [] → p.restart = true → ∀ n,
    ∃ t, run (step cfg) s (List.replicate n (delivery s.starts)) = some t ∧
      t.log = p.blinky.log ++ (List.range (n + 1)).flatMap (playedAgain (delays cfg.longBits p.pattern)) ∧
      t.inFlight = [s.starts]

section Playback

variable {cfg : Config} {p : IdleStart}

/-- The object between `start`'s preparations and its step. -/
def IdleStart.loaded (p : IdleStart) : Blinky := (stop (p.blinky.configure p.args)).load p.pattern

theorem start_loaded (cfg : Config) (p : IdleStart) :
    start cfg (runScript cfg .done) p.args p.blinky = runStep cfg (runScript cfg .done) true p.loaded := by
  have htasklet : ¬(p.blinky.configure p.args).tasklet < 0 := by
    unfold Blinky.configure IdleStart.args
    rcases p.tasklet with h | h
    · simp [Int.not_lt.mpr h]
    · simp only
      split <;> omega
  unfold start
  simp only [if_neg htasklet]
  rfl

theorem at_loaded (cfg : Config) (p : IdleStart) :
    At cfg.longBits p.pattern (delays cfg.longBits p.pattern) p.loaded :=
  at_start p.noNul rfl rfl cfg.longBits

/-- **Without restart**: the start plays the first delay, each delivery the next one, and the last delivery calls back. -/
theorem plays_once {s : Blinky} {d : Int} {ds : List Int} {log : List Action} {pattern : List UInt8}
    (h : Waits cfg pattern ds s) (hlog : s.log = log ++ played d) (hrestart : s.restart = false) :
    ∀ n ≤ (d :: ds).length, ∃ t, run (step cfg) s (List.replicate n (delivery s.starts)) = some t ∧
      t.log = log ++ ((d :: ds).take (n + 1)).flatMap played ++ (if n < (d :: ds).length then [] else [.callback]) ∧
      t.inFlight = if n < (d :: ds).length then [s.starts] else [] := by
  induction ds generalizing s d log with
  | nil =>
    intro n hn
    obtain ⟨t, hstep, hdoes⟩ := deliver_end h hrestart
    rcases Nat.le_one_iff_eq_zero_or_eq_one.mp hn with rfl | rfl
    · exact ⟨s, rfl, by simp [hlog], by simp [h.inFlight]⟩
    · refine ⟨t, by simp [hstep], ?_, by simp [hdoes.inFlight]⟩
      rw [hdoes.log, hlog]
      simp
  | cons d' ds ih =>
    intro n hn
    obtain ⟨t, hstep, hwaits, hdoes⟩ := deliver_next h
    cases n with
    | zero => exact ⟨s, rfl, by simp [hlog], by simp [h.inFlight]⟩
    | succ n =>
      have hlog' : t.log = (log ++ played d) ++ played d' := by rw [hdoes.log, hlog]; rfl
      obtain ⟨u, hrun, hu, hflight⟩ := ih hwaits hlog' (hdoes.restart.trans hrestart) n (Nat.le_of_succ_le_succ hn)
      refine ⟨u, ?_, ?_, ?_⟩
      · rw [List.replicate_succ, run_cons, hstep]
        rwa [hdoes.starts] at hrun
      · rw [hu]
        simp [List.append_assoc]
      · rw [hflight, hdoes.starts]
        simp

/-- The place in a pass, one delivery later. -/
theorem succ_mod_eq {k : Nat} (hk : 0 < k) (n : Nat) :
    (n + 1) % k = if n % k + 1 = k then 0 else n % k + 1 := by
  have hlt := Nat.mod_lt n hk
  rw [← Nat.mod_add_mod]
  split
  · rename_i hlast
    rw [hlast, Nat.mod_self]
  · exact Nat.mod_eq_of_lt (by omega)

/-- What was scheduled and called in the first `n + 1` delays, and where the object waits after them. -/
structure PlaysAgain (cfg : Config) (p : IdleStart) (ds : List Int) (starts n : Nat) (t : Blinky) : Prop where
  waits : Waits cfg p.pattern (ds.drop (n % ds.length + 1)) t
  starts_eq : t.starts = starts
  restart : t.restart = true
  log : t.log = p.blinky.log ++ (List.range (n + 1)).flatMap (playedAgain ds)

section Again

variable {d : Int} {ds : List Int} {starts n : Nat} {t : Blinky}

theorem PlaysAgain.log_succ (h : PlaysAgain cfg p ds starts n t) : p.blinky.log ++
    (List.range (n + 1 + 1)).flatMap (playedAgain ds) = t.log ++ playedAgain ds (n + 1) := by
  rw [h.log, List.range_succ, List.flatMap_append, List.flatMap_singleton, List.append_assoc]

/-- **With restart** a delivery plays the next delay, the first one again after the last. -/
theorem PlaysAgain.deliver (hnul : 0 ∉ p.pattern) (hds : delays cfg.longBits p.pattern = d :: ds)
    (h : PlaysAgain cfg p (d :: ds) starts n t) :
    ∃ u, step cfg t (delivery t.starts) = some u ∧ PlaysAgain cfg p (d :: ds) starts (n + 1) u := by
  have hpos : 0 < (d :: ds).length := Nat.succ_pos _
  have hmod := Nat.mod_lt n hpos
  have hwaits := h.waits
  by_cases hlast : n % (d :: ds).length + 1 = (d :: ds).length
  · -- the pass is over, and the next one begins
    have hzero : (n + 1) % (d :: ds).length = 0 := by rw [succ_mod_eq hpos, if_pos hlast]
    rw [hlast, List.drop_length] at hwaits
    obtain ⟨u, hstep, hwaits', hdoes⟩ := deliver_again hwaits h.restart hnul hds
    refine ⟨u, hstep, ?_, hdoes.starts.trans h.starts_eq, hdoes.restart.trans h.restart, ?_⟩
    · rw [hzero]
      exact hwaits'
    · rw [h.log_succ, hdoes.log, playedAgain, if_pos ⟨Nat.succ_pos n, hzero⟩, hzero]
      rfl
  · have hnext : (n + 1) % (d :: ds).length = n % (d :: ds).length + 1 := by rw [succ_mod_eq hpos, if_neg hlast]
    have hlt : n % (d :: ds).length + 1 < (d :: ds).length := by omega
    rw [List.drop_eq_getElem_cons hlt] at hwaits
    obtain ⟨u, hstep, hwaits', hdoes⟩ := deliver_next hwaits
    refine ⟨u, hstep, ?_, hdoes.starts.trans h.starts_eq, hdoes.restart.trans h.restart, ?_⟩
    · rw [hnext]
      exact hwaits'
    · have hne : ¬(0 < n + 1 ∧ (n + 1) % (d :: ds).length = 0) := by
        rw [hnext]
        omega
      rw [h.log_succ, hdoes.log, playedAgain, if_neg hne, hnext, List.getD_eq_getElem?_getD,
        List.getElem?_eq_getElem hlt]
      rfl

/-- So do any number of deliveries. -/
theorem plays_forever {s : Blinky} (hnul : 0 ∉ p.pattern) (hds : delays cfg.longBits p.pattern = d :: ds)
    (h : PlaysAgain cfg p (d :: ds) s.starts 0 s) (n : Nat) :
    ∃ t, run (step cfg) s (List.replicate n (delivery s.starts)) = some t ∧ PlaysAgain cfg p (d :: ds) s.starts n t := by
  induction n with
  | zero => exact ⟨s, rfl, h⟩
  | succ n ih =>
    obtain ⟨t, hrun, ht⟩ := ih
    obtain ⟨u, hstep, hu⟩ := ht.deliver hnul hds
    refine ⟨u, ?_, hu⟩
    rw [List.replicate_succ']
    exact run_snoc.mpr ⟨t, hrun, ht.starts_eq ▸ hstep⟩

end Again

/-- **Playback is exact**, for every pattern and with or without restart: `start` succeeds if there is a delay to play. -/
theorem playback_exact (cfg : Config) (p : IdleStart) : ∃ s,
    start cfg (runScript cfg .done) p.args p.blinky = .ok (!(delays cfg.longBits p.pattern).isEmpty, s) ∧
      PlaysExactly cfg p s := by
  have hat := at_loaded cfg p
  have hnone : p.loaded.inFlight = [] := p.nothing
  rw [start_loaded]
  cases hds : delays cfg.longBits p.pattern with
  | nil =>
    rw [hds] at hat
    obtain ⟨s, hrun, _, hdoes⟩ := runStep_ends hat
    refine ⟨s, hrun, fun _ => ⟨hdoes.log, hdoes.inFlight.trans hnone⟩, fun h => absurd hds h, fun h => absurd hds h⟩
  | cons d ds =>
    rw [hds] at hat
    obtain ⟨s, hrun, hat', hdoes⟩ := runStep_plays hat
    have hflight : s.inFlight = [s.starts] := by
      rw [hdoes.inFlight, hnone, hdoes.starts]
      rfl
    have hwaits : Waits cfg p.pattern ds s := ⟨hat', hflight⟩
    have hlog : s.log = p.blinky.log ++ played d := hdoes.log
    refine ⟨s, hrun, fun h => ?_, fun _ hrestart n hn => ?_, fun _ hrestart n => ?_⟩
    · rw [hds] at h
      cases h
    · rw [hds] at hn ⊢
      exact plays_once hwaits hlog (hdoes.restart.trans hrestart) n hn
    · have hfirst : PlaysAgain cfg p (d :: ds) s.starts 0 s := by
        refine ⟨by simpa using hwaits, rfl, hdoes.restart.trans hrestart, ?_⟩
        simp [hlog, playedAgain]
      obtain ⟨t, hrun', ht⟩ := plays_forever p.noNul hds hfirst n
      rw [hds]
      exact ⟨t, hrun', ht.log, ht.waits.inFlight.trans (by rw [ht.starts_eq])⟩

end Playback

end PelionClient.Blink
