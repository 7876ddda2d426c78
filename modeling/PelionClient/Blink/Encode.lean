import Mathlib.Algebra.Group.Nat.Defs
import PelionClient.Blink.Playback

/-!
# Writing a pattern

The pattern of a list of delays has their decimals with `:` between them (`patternOf`). Read back it gives the same delays,
whether or not a `:` follows (`delays_patternOf`, `delays_patternOf_colon`), and every pattern plays the delays of a written
one, since a delay that was read fits an `int` (`delays_lt`). What a playback does depends on the delays of its pattern
only (`playback_congr`), so a pattern may be replaced by the one that writes what it reads (`played_written`).
-/

namespace PelionClient.Blink

open Lib

/-- A delay in milliseconds that an `int` holds. -/
abbrev Delay := { d : Nat // d < 2 ^ 31 }

/-- The decimal digits of a number. -/
def digits (n : Nat) : List UInt8 := (Nat.toDigits 10 n).map fun c => UInt8.ofNat c.toNat

/-- The delays as a pattern. -/
def patternOf : List Delay → List UInt8
  | [] => []
  | [d] => digits d
  | d :: e :: ds => digits d ++ 58 :: patternOf (e :: ds)

example : patternOf [⟨10, by decide⟩, ⟨0, by decide⟩] = [49, 48, 58, 48] := by decide

/-! ## One number -/

section Digits

theorem toNat_of_isDigit {c : Char} (h : c.isDigit) :
    (UInt8.ofNat c.toNat).toNat = c.toNat ∧ 48 ≤ c.toNat ∧ c.toNat ≤ 57 := by
  obtain ⟨hlo, hhi⟩ := Char.isDigit_iff_toNat.mp h
  have hlo' : 48 ≤ c.toNat := hlo
  have hhi' : c.toNat ≤ 57 := hhi
  refine ⟨?_, hlo', hhi'⟩
  rw [UInt8.toNat_ofNat']
  exact Nat.mod_eq_of_lt (by omega)

theorem isDigit_digits (n : Nat) : ∀ b ∈ digits n, isDigit b = true := by
  intro b hb
  obtain ⟨c, hc, rfl⟩ := List.mem_map.mp hb
  obtain ⟨hval, hlo, hhi⟩ := toNat_of_isDigit (Nat.isDigit_of_mem_toDigits (by decide) (by decide) hc)
  simp only [isDigit, Bool.and_eq_true, decide_eq_true_eq, UInt8.le_iff_toNat_le, hval]
  exact ⟨hlo, hhi⟩

/-- **The digits denote the number.** -/
theorem decimal_digits (n : Nat) : decimal (digits n) = n := by
  have hfold : ∀ (cs : List Char) (m : Nat), (∀ c ∈ cs, c.isDigit) →
      (cs.map fun c => UInt8.ofNat c.toNat).foldl (fun m b => 10 * m + (b.toNat - 48)) m = Nat.ofDigitChars 10 cs m := by
    intro cs
    induction cs with
    | nil => exact fun _ _ => rfl
    | cons c cs ih =>
      intro m hcs
      obtain ⟨hc, hcs⟩ := List.forall_mem_cons.mp hcs
      rw [List.map_cons, List.foldl_cons, ih _ hcs, Nat.ofDigitChars_cons, (toNat_of_isDigit hc).1]
      rfl
  unfold decimal digits
  rw [hfold _ _ fun c hc => Nat.isDigit_of_mem_toDigits (by decide) (by decide) hc, Nat.ofDigitChars_ten_toDigits]

/-- The digits of a number, as a field. -/
def numberField (n : Nat) : NumberField where
  blanks := []
  sign := []
  digits := digits n
  isBlank _ h := absurd h List.not_mem_nil
  isSign := Or.inl rfl
  isNumber := isDigit_digits n
  nonempty := by simp [digits, Nat.toDigits_ne_nil]

theorem value_numberField (n : Nat) : (numberField n).value = n := by
  rw [NumberField.value, if_neg (by simp [numberField])]
  exact congrArg Int.ofNat (decimal_digits n)

/-- What `get_next_int` makes of the digits of a delay. -/
theorem fieldDelay_digits {bits : Nat} (hbits : 32 ≤ bits) (d : Delay) (isLast : Bool) :
    fieldDelay bits isLast (digits d) = d.val := by
  have hd := d.property
  have hval := value_numberField d
  have hread := fieldDelay_number (numberField d) hbits (by omega) (by omega) isLast
  rw [hval] at hread
  exact hread

theorem not_mem_digits {k : UInt8} (hk : isDigit k = false) (n : Nat) : k ∉ digits n := by
  intro h
  rw [isDigit_digits n k h] at hk
  cases hk

end Digits

/-! ## The whole pattern -/

section Pattern

variable {bits : Nat}

/-- The delays as `get_next_int` gives them. -/
def values (ds : List Delay) : List Int := ds.map fun d => (d.val : Int)

theorem values_injective : Function.Injective values :=
  List.map_injective_iff.mpr fun _ _ h => Subtype.ext (Int.ofNat.inj h)

/-- A written delay in front. -/
theorem delays_digits (hbits : 32 ≤ bits) (d : Delay) (rest : List UInt8) :
    delays bits (digits d ++ 58 :: rest) = (d.val : Int) :: delays bits rest := by
  rw [delays_field (not_mem_digits rfl d), fieldDelay_digits hbits, if_neg (by omega)]

/-- **A written pattern reads back.** -/
theorem delays_patternOf (hbits : 32 ≤ bits) (ds : List Delay) : delays bits (patternOf ds) = values ds := by
  induction ds with
  | nil => exact delays_nil bits
  | cons d ds ih =>
    cases ds with
    | nil =>
      rw [patternOf, delays_last (not_mem_digits rfl d), fieldDelay_digits hbits, if_neg (by omega)]
      rfl
    | cons e ds =>
      rw [patternOf, delays_digits hbits, ih]
      rfl

/-- A `:` at the end adds no delay. -/
theorem delays_patternOf_colon (hbits : 32 ≤ bits) {ds : List Delay} (hds : ds ≠ []) :
    delays bits (patternOf ds ++ [58]) = values ds := by
  induction ds with
  | nil => exact absurd rfl hds
  | cons d ds ih =>
    cases ds with
    | nil =>
      rw [patternOf, delays_digits hbits, delays_nil]
      rfl
    | cons e ds =>
      rw [patternOf, List.append_assoc, List.cons_append, delays_digits hbits, ih (by simp)]
      rfl

/-! ## Any pattern -/

theorem narrow_lt (v : Int) : narrow v < 2 ^ 31 := by
  unfold narrow
  have h := Int.bmod_lt (x := v) (m := 2 ^ 32) (by decide)
  omega

/-- What `get_next_int` gives fits an `int`. -/
theorem nextField_lt (bits : Nat) (cs : List UInt8) : (nextField bits cs).1 < 2 ^ 31 := by
  have hneg : (-1 : Int) < 2 ^ 31 := by decide
  simp only [nextField]
  split
  · split
    · exact narrow_lt _
    · split
      · exact narrow_lt _
      · exact hneg
  · exact hneg

/-- A delay of a pattern fits an `int` and is not negative. -/
theorem delays_lt (bits : Nat) (pattern : List UInt8) : ∀ d ∈ delays bits pattern, 0 ≤ d ∧ d < 2 ^ 31 := by
  unfold delays
  induction fields pattern with
  | nil =>
    intro d hd
    cases hd
  | cons field rest ih =>
    rw [acceptedDelays]
    split
    · intro d hd
      cases hd
    · rename_i hpos
      intro d hd
      rcases List.mem_cons.mp hd with rfl | hd
      · exact ⟨Int.not_lt.mp hpos, nextField_lt _ _⟩
      · exact ih d hd

/-- The delays of a pattern, as numbers that can be written. -/
def readDelays (bits : Nat) (pattern : List UInt8) : List Delay :=
  (delays bits pattern).attach.map fun d => ⟨d.val.toNat, by
    obtain ⟨hlo, hhi⟩ := delays_lt bits pattern d.val d.property
    omega⟩

theorem values_readDelays (bits : Nat) (pattern : List UInt8) :
    values (readDelays bits pattern) = delays bits pattern := by
  unfold values readDelays
  rw [List.map_map]
  refine Eq.trans (List.map_congr_left fun d _ => ?_) (List.attach_map_subtype_val _)
  exact Int.toNat_of_nonneg (delays_lt bits pattern d.val d.property).1

theorem noNul_patternOf (ds : List Delay) : 0 ∉ patternOf ds := by
  induction ds with
  | nil => exact List.not_mem_nil
  | cons d ds ih =>
    cases ds with
    | nil => exact not_mem_digits rfl d
    | cons e ds =>
      intro h
      rcases List.mem_append.mp h with h | h
      · exact not_mem_digits rfl d h
      · rcases List.mem_cons.mp h with h | h
        · cases h
        · exact ih h

/-- What is read from a written pattern is what was written. -/
theorem readDelays_patternOf (hbits : 32 ≤ bits) (ds : List Delay) : readDelays bits (patternOf ds) = ds := by
  apply values_injective
  rw [values_readDelays, delays_patternOf hbits]

end Pattern

/-! ## Playing them -/

/-- The actions in a start and `n` deliveries of its timer event. -/
def playback (cfg : Config) (p : IdleStart) (n : Nat) : Option (List Action) := do
  let (_, s) ← (start cfg (runScript cfg .done) p.args p.blinky).toOption
  let t ← run (step cfg) s (List.replicate n (delivery s.starts))
  return t.log

/-- Two objects that play the same delays from here on, of the patterns `p` and `q`, or are both at the end. -/
structure Alike (cfg : Config) (p q : List UInt8) (starts : Nat) (s t : Blinky) : Prop where
  log : s.log = t.log
  starts_left : s.starts = starts
  starts_right : t.starts = starts
  restart : s.restart = t.restart
  place : (delays cfg.longBits p ≠ [] ∧ ∃ ds, Waits cfg p ds s ∧ Waits cfg q ds t) ∨ (s.inFlight = [] ∧ t.inFlight = [])

section Alike

variable {cfg : Config} {p q : List UInt8} {starts : Nat} {s t u : Blinky}

/-- After the same actions, with the same delays left. -/
theorem Alike.after {s' t' : Blinky} {actions : List Action} {inFlight inFlight' : List Nat}
    (h : Alike cfg p q starts s t) (hs : Does s s' actions inFlight) (ht : Does t t' actions inFlight')
    (hplace : (delays cfg.longBits p ≠ [] ∧ ∃ ds, Waits cfg p ds s' ∧ Waits cfg q ds t') ∨
      (s'.inFlight = [] ∧ t'.inFlight = [])) :
    Alike cfg p q starts s' t' :=
  ⟨by rw [hs.log, ht.log, h.log], hs.starts.trans h.starts_left, ht.starts.trans h.starts_right,
    by rw [hs.restart, ht.restart, h.restart], hplace⟩

/-- A delivery does the same to both. -/
theorem Alike.deliver (hp : 0 ∉ p) (hq : 0 ∉ q) (hds : delays cfg.longBits q = delays cfg.longBits p)
    (h : Alike cfg p q starts s t) (hu : step cfg s (delivery starts) = some u) :
    ∃ v, step cfg t (delivery starts) = some v ∧ Alike cfg p q starts u v := by
  rcases h.place with ⟨hne, left, hs, ht⟩ | ⟨hs, _⟩
  · -- the same delays are left: a delay is played, or the end is reached, with or without another pass
    have hstep (v : Blinky) (hv : step cfg s (delivery s.starts) = some v) : u = v :=
      Option.some.inj (hu.symm.trans (h.starts_left ▸ hv))
    rw [← h.starts_right]
    cases left with
    | cons d' left =>
      obtain ⟨u', hu', hsu, hdu⟩ := deliver_next hs
      obtain ⟨v, hv, htv, hdv⟩ := deliver_next ht
      obtain rfl := hstep u' hu'
      exact ⟨v, hv, h.starts_right ▸ h.after hdu hdv (Or.inl ⟨hne, left, hsu, htv⟩)⟩
    | nil =>
      cases hrestart : s.restart with
      | false =>
        obtain ⟨u', hu', hdu⟩ := deliver_end hs hrestart
        obtain ⟨v, hv, hdv⟩ := deliver_end ht (h.restart ▸ hrestart)
        obtain rfl := hstep u' hu'
        exact ⟨v, hv, h.starts_right ▸ h.after hdu hdv (Or.inr ⟨hdu.inFlight, hdv.inFlight⟩)⟩
      | true =>
        obtain ⟨d, rest, hfirst⟩ := List.exists_cons_of_ne_nil hne
        obtain ⟨u', hu', hsu, hdu⟩ := deliver_again hs hrestart hp hfirst
        obtain ⟨v, hv, htv, hdv⟩ := deliver_again ht (h.restart ▸ hrestart) hq (hds.trans hfirst)
        obtain rfl := hstep u' hu'
        exact ⟨v, hv, h.starts_right ▸ h.after hdu hdv (Or.inl ⟨hne, rest, hsu, htv⟩)⟩
  · -- nothing is in flight
    have hmem : starts ∈ s.inFlight := (step_eq_some.mp hu).1
    rw [hs] at hmem
    cases hmem

end Alike

section Playing

variable {cfg : Config}

/-- The same start with another pattern. -/
def IdleStart.withPattern (p : IdleStart) (pattern : List UInt8) (noNul : 0 ∉ pattern) : IdleStart :=
  { p with pattern := pattern, noNul := noNul }

/-- Where a start leads. -/
theorem start_leaves (p : IdleStart) : ∃ ok s, start cfg (runScript cfg .done) p.args p.blinky = .ok (ok, s) ∧
    Does p.loaded s (match delays cfg.longBits p.pattern with | [] => [.callback] | d :: _ => played d) s.inFlight ∧
    match delays cfg.longBits p.pattern with
    | [] => s.inFlight = []
    | _ :: ds => Waits cfg p.pattern ds s := by
  have hat := at_loaded cfg p
  have hnone : p.loaded.inFlight = [] := p.nothing
  rw [start_loaded]
  cases hds : delays cfg.longBits p.pattern with
  | nil =>
    rw [hds] at hat
    obtain ⟨s, hrun, _, hdoes⟩ := runStep_ends hat
    exact ⟨false, s, hrun, ⟨hdoes.log, rfl, hdoes.starts, hdoes.restart⟩, hdoes.inFlight.trans hnone⟩
  | cons d ds =>
    rw [hds] at hat
    obtain ⟨s, hrun, hat', hdoes⟩ := runStep_plays hat
    refine ⟨true, s, hrun, ⟨hdoes.log, rfl, hdoes.starts, hdoes.restart⟩, hat', ?_⟩
    rw [hdoes.inFlight, hnone, hdoes.starts]
    rfl

/-- Starts on the same object with patterns of the same delays. -/
theorem alike_start {p : IdleStart} {pattern : List UInt8} {noNul : 0 ∉ pattern} {ok ok' : Bool} {s t : Blinky}
    (hds : delays cfg.longBits pattern = delays cfg.longBits p.pattern)
    (hs : start cfg (runScript cfg .done) p.args p.blinky = .ok (ok, s))
    (ht : start cfg (runScript cfg .done) (p.withPattern pattern noNul).args p.blinky = .ok (ok', t)) :
    Alike cfg p.pattern pattern s.starts s t := by
  obtain ⟨_, s', hs', hdoes, hplace⟩ := @start_leaves cfg p
  obtain ⟨_, t', ht', hdoes', hplace'⟩ := @start_leaves cfg (p.withPattern pattern noNul)
  obtain ⟨-, rfl⟩ := Prod.mk.inj (Except.ok.inj (hs.symm.trans hs'))
  obtain ⟨-, rfl⟩ := Prod.mk.inj (Except.ok.inj (ht.symm.trans ht'))
  have hpattern : (p.withPattern pattern noNul).pattern = pattern := rfl
  rw [hpattern, hds] at hdoes' hplace'
  refine ⟨by rw [hdoes.log, hdoes'.log]; rfl, rfl, hdoes'.starts.trans hdoes.starts.symm,
    hdoes.restart.trans hdoes'.restart.symm, ?_⟩
  cases hcase : delays cfg.longBits p.pattern with
  | nil =>
    rw [hcase] at hplace hplace'
    exact Or.inr ⟨hplace, hplace'⟩
  | cons d ds =>
    rw [hcase] at hplace hplace'
    exact Or.inl ⟨List.cons_ne_nil d ds, ds, hplace, hplace'⟩

theorem playback_of_delays_eq {p : IdleStart} {pattern : List UInt8} (noNul : 0 ∉ pattern) {n : Nat} {log : List Action}
    (hds : delays cfg.longBits pattern = delays cfg.longBits p.pattern) (h : playback cfg p n = some log) :
    playback cfg (p.withPattern pattern noNul) n = some log := by
  obtain ⟨⟨_, s⟩, hs, hrest⟩ := Option.bind_eq_some_iff.mp h
  obtain ⟨u, hu, hlog⟩ := Option.bind_eq_some_iff.mp hrest
  obtain ⟨ok', t, ht, -⟩ := @start_leaves cfg (p.withPattern pattern noNul)
  have halike := alike_start hds (toOption_eq_some_iff.mp hs) ht
  have hstarts : t.starts = s.starts := halike.starts_right
  have hdeliver : ∀ s' t' u', ∀ a ∈ List.replicate n (delivery s.starts), Alike cfg p.pattern pattern s.starts s' t' →
      step cfg s' a = some u' → ∃ v, step cfg t' a = some v ∧ Alike cfg p.pattern pattern s.starts u' v := by
    intro s' t' u' a ha halike hu'
    rw [List.eq_of_mem_replicate ha] at hu' ⊢
    exact halike.deliver p.noNul noNul hds hu'
  obtain ⟨v, hv, hlast⟩ := run_simulates (Alike cfg p.pattern pattern s.starts) halike hdeliver hu
  have ht' : (start cfg (runScript cfg .done) (p.withPattern pattern noNul).args
      (p.withPattern pattern noNul).blinky).toOption = some (ok', t) := toOption_eq_some_iff.mpr ht
  simp only [playback, ht', hstarts, hv, Option.bind_eq_bind, Option.bind_some]
  exact congrArg some (hlast.log.symm.trans (Option.some.inj hlog))

/-- **A playback depends on the delays of its pattern only.** -/
theorem playback_congr {p : IdleStart} {pattern : List UInt8} (noNul : 0 ∉ pattern)
    (hds : delays cfg.longBits pattern = delays cfg.longBits p.pattern) (n : Nat) :
    playback cfg (p.withPattern pattern noNul) n = playback cfg p n := by
  apply Option.ext
  intro log
  exact ⟨@playback_of_delays_eq cfg (p.withPattern pattern noNul) p.pattern p.noNul n log hds.symm,
    playback_of_delays_eq noNul hds⟩

/-- A playback without restart plays each delay once, and calls back. -/
theorem playback_once {p : IdleStart} (hrestart : p.restart = false) {n : Nat}
    (hn : n ≤ (delays cfg.longBits p.pattern).length) (hne : delays cfg.longBits p.pattern ≠ []) :
    playback cfg p n = some (p.blinky.log ++ ((delays cfg.longBits p.pattern).take (n + 1)).flatMap played ++
      if n < (delays cfg.longBits p.pattern).length then [] else [.callback]) := by
  obtain ⟨ok, s, hs, hdoes, hplace⟩ := @start_leaves cfg p
  obtain ⟨d, ds, hds⟩ := List.exists_cons_of_ne_nil hne
  rw [hds] at hn hdoes hplace ⊢
  obtain ⟨t, ht, hlog, -⟩ := plays_once hplace hdoes.log (hdoes.restart.trans hrestart) n hn
  have hs' : (start cfg (runScript cfg .done) p.args p.blinky).toOption = some (ok, s) := toOption_eq_some_iff.mpr hs
  simp only [playback, hs', ht, Option.bind_eq_bind, Option.bind_some]
  exact congrArg some hlog

/-- **Writing and reading patterns.** A written pattern, also with a `:` behind it, is played as its delays and is what is
written of what it reads; and any pattern is played like the one written of what it reads, with or without restart. -/
theorem played_written (hbits : 32 ≤ cfg.longBits) :
    (∀ ds, readDelays cfg.longBits (patternOf ds) = ds) ∧
    (∀ (p : IdleStart) (ds : List Delay), p.restart = false → ds ≠ [] →
      p.pattern = patternOf ds ∨ p.pattern = patternOf ds ++ [58] → ∀ n ≤ ds.length,
        playback cfg p n = some (p.blinky.log ++ ((values ds).take (n + 1)).flatMap played ++
          if n < ds.length then [] else [.callback])) ∧
    ∀ (p : IdleStart) (n : Nat), playback cfg (p.withPattern _ (noNul_patternOf (readDelays cfg.longBits p.pattern))) n =
      playback cfg p n := by
  refine ⟨readDelays_patternOf hbits, fun p ds hrestart hne hpattern n hn => ?_, fun p n => ?_⟩
  · have hds : delays cfg.longBits p.pattern = values ds := by
      rcases hpattern with hpattern | hpattern
      · rw [hpattern, delays_patternOf hbits]
      · rw [hpattern, delays_patternOf_colon hbits hne]
    have hlength : (delays cfg.longBits p.pattern).length = ds.length := by rw [hds, values, List.length_map]
    have hsome : delays cfg.longBits p.pattern ≠ [] := by
      rw [hds]
      exact fun hnil => hne (List.map_eq_nil_iff.mp hnil)
    rw [playback_once hrestart (hlength ▸ hn) hsome, hlength, hds]
  · refine playback_congr _ ?_ n
    rw [delays_patternOf hbits, values_readDelays]

/-- A fresh object, and the pattern `500:0`. -/
def twoDelays : IdleStart :=
  ⟨.fresh, patternOf [⟨500, by decide⟩, ⟨0, by decide⟩], false, 1, rfl, rfl, noNul_patternOf _, Or.inr (by decide)⟩

theorem played_written_twoDelays : playback ⟨64, true⟩ twoDelays 2 =
    some [.schedule 500, .toggleLed, .schedule 0, .toggleLed, .callback] :=
  (@played_written ⟨64, true⟩ (by decide)).2.1 twoDelays [⟨500, by decide⟩, ⟨0, by decide⟩] rfl (List.cons_ne_nil _ _)
    (Or.inl rfl) 2 (by decide)

end Playing

end PelionClient.Blink
