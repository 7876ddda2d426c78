import PelionClient.Client.Register
import PelionClient.Lib.LastWrite
import PelionClient.Main.Resources
import PelionClient.Main.ScanLoop
import PelionClient.Platform.Connection

/-!
# The program (`main_application`)

The whole of `main_application` with `FEA_BLE` 1: four initialisations that must succeed, the resources, `call_register`
with the network connection, and the loop, with the cloud client's callbacks, POST and PUT requests at any time between them.
The functions behind the two executable resources use the static `client`. The resources that the device publishes to allow
PUT, so the cloud can write them too. Which function the client library calls for a POST, and what it does with a PUT, is a
parameter (`RequestLibrary`).

- In every run the loop is that of `ScanLoop`, with the values in the resource tree (`Refines`).
- The only action that ends the program is a report with an index past the table (`program_faults_iff`).
- Every resource has the value last written to it, by a publication or by a PUT (`program_cloud`).
-/

namespace PelionClient.Main

open Lib Beacon Platform
open Client (AddCall RequestLibrary ResourcePath SimpleM2MClient)

/-! ## The state -/

/-- The calls before the client is made, each of which ends the program if it fails. -/
inductive InitCall
  /-- `application_init_mbed_trace` -/
  | trace
  /-- `mcc_platform_storage_init` -/
  | storage
  /-- `mcc_platform_init` -/
  | platform
  /-- `application_init` -/
  | application
deriving DecidableEq, Repr

def InitCall.next : InitCall → Option InitCall
  | .trace => some .storage
  | .storage => some .platform
  | .platform => some .application
  | .application => none

/-- Where `main_application` is. -/
inductive Stage
  | initialising (call : InitCall)
  /-- An initialisation has failed. -/
  | failed
  /-- In `call_register`. -/
  | registering
  | looping (control : Control)
deriving DecidableEq, Repr

/-- `mbedClient` is registering or has registered, and `main_application` has not returned. -/
def Stage.Alive (s : Stage) : Prop := s = .registering ∨ ∃ c, s = .looping c ∧ c ≠ .exited

instance (s : Stage) : Decidable s.Alive :=
  match s with
  | .initialising _ => isFalse (by rintro (h | ⟨c, h, _⟩) <;> cases h)
  | .failed => isFalse (by rintro (h | ⟨c, h, _⟩) <;> cases h)
  | .registering => isTrue (Or.inl rfl)
  | .looping c => decidable_of_iff (c ≠ .exited) ⟨fun h => Or.inr ⟨c, rfl, h⟩, by
      rintro (h | ⟨c', h, hc⟩)
      · cases h
      · cases h
        exact hc⟩

/-- What ends the program. -/
inductive ProgramFault
  /-- A call through a NULL `client`. -/
  | nullClient
  /-- A call through a NULL resource. -/
  | nullResource
  /-- A resource calls an address that is neither of the two functions. -/
  | noFunction
  | beacon (f : Beacon.Fault)
deriving DecidableEq, Repr

structure Program where
  stage : Stage
  /-- The static `client` points to `mbedClient`. -/
  client : Bool
  mbedClient : SimpleM2MClient
  /-- `network_interface` is not NULL. -/
  networkInterface : Bool
  gapDevice : Gap.GapDevice
  app : Application
  /-- The calls of `close`, and of `kcm_factory_reset`. -/
  closes : Nat
  factoryResets : Nat

/-- The program at its start, with a scanner whose queue has this capacity. -/
def Program.init (capacity : Nat) : Program where
  stage := .initialising .trace
  client := false
  mbedClient := .fresh
  networkInterface := false
  gapDevice := .fresh capacity
  app := ⟨⟨Vector.replicate maxConnectedBeacons .zero, 0, 0, 0⟩, ⟨[], Vector.replicate maxConnectedBeacons none, none⟩⟩
  closes := 0
  factoryResets := 0

/-! ## The steps -/

inductive ProgramAct
  /-- The call of an initialisation returns. -/
  | initReturn (ok : Bool)
  /-- `call_register` connects to this network. -/
  | connect (network : Network)
  /-- Another step of `call_register`, or a callback of the cloud client. -/
  | client (a : Client.Act)
  | loop (a : LoopAct)
  /-- The cloud client gets a POST for the path. -/
  | post (p : ResourcePath)
  /-- The cloud client gets a PUT of the value for the path. -/
  | put (p : ResourcePath) (v : String)

/-- From `client = &mbedClient` to `call_register`. -/
def prepare (lib : RequestLibrary DataType) (cb : Callbacks) (s : Program) : Except ProgramFault Program :=
  match createResources lib.toClientLibrary cb with
  | some tree => .ok { s with
      stage := .registering
      client := true
      app := ⟨{ s.app.beacons with beaconTbl := initBeaconTbl }, tree⟩
      mbedClient := Client.next s.mbedClient .callRegister }
  | none => .error .nullResource

def initReturn (lib : RequestLibrary DataType) (cb : Callbacks) (s : Program) (call : InitCall) (ok : Bool) :
    Except ProgramFault Program :=
  if ok then
    match call.next with
    | some call => .ok { s with stage := .initialising call }
    | none => prepare lib cb s
  else .ok { s with stage := .failed }

/-- The client has taken a step; the loop is next when `call_register` has returned. -/
def Program.withClient (s : Program) (m : SimpleM2MClient) : Program :=
  { s with mbedClient := m
           stage := if s.stage = .registering ∧ m.phase = .outside then .looping .testing else s.stage }

def connected (s : Program) (network : Network) : Program :=
  { s with networkInterface := (initConnection network).2 }.withClient
    (Client.next s.mbedClient (.initConnection (initConnection network).1))

/-- The steps of the client that are not steps of `main_application` by themselves. -/
def FromClient : Client.Act → Prop
  | .callRegister | .initConnection _ => False
  | _ => True

instance (a : Client.Act) : Decidable (FromClient a) :=
  match a with
  | .callRegister | .initConnection _ => isFalse not_false
  | .setupReturn _ | .assign | .ret | .clientRegistered | .clientUnregistered | .error _ => isTrue trivial

/-- `_scan_count` as `demo_mode_end` leaves it. -/
def clearedScanCount (b : BeaconState) : Gap.Act → BeaconState
  | .deliver ⟨.demoModeEnd, _⟩ _ _ => { b with scanCount := 0 }
  | _ => b

/-- The scanner has taken a step in the loop. -/
def Program.scanned (s : Program) (g : Gap.GapDevice) (b : BeaconState) : Program :=
  { s with stage := .looping (controlAfter g), gapDevice := g, app := { s.app with beacons := b } }

def loopAct (fmt : ValueFormat) (s : Program) (control : Control) : LoopAct → Option (Except ProgramFault Program)
  | .test registered =>
    if control = .testing ∧ registered = Client.isRegisterCalled s.mbedClient then
      some (.ok { s with stage := .looping (controlTested registered) })
    else none
  | .run =>
    if control = .entering then (Gap.step s.gapDevice .run).map fun g => .ok (s.scanned g s.app.beacons) else none
  | .gap a =>
    if control = .running ∧ a ≠ .run ∧ a ≠ .advertisement then
      (Gap.step s.gapDevice a).map fun g => .ok (s.scanned g (clearedScanCount s.app.beacons a))
    else none
  | .advertisement now data =>
    if control = .running then
      (Gap.step s.gapDevice .advertisement).map fun g =>
        match onScan s.app.beacons now data with
        | .ok b => .ok (s.scanned g b)
        | .error f => .error (.beacon f)
    else none
  | .publish =>
    if control = .publishing then
      match publishTree fmt s.app with
      | some (app, _) => some (.ok { s with stage := .looping .testing, app := app })
      | none => some (.error .nullResource)
    else none

/-- `client->close()` -/
def close (s : Program) : Except ProgramFault Program :=
  if s.client then .ok { s with closes := s.closes + 1 } else .error .nullClient

def unregister (s : Program) : Except ProgramFault Program := close s

def factoryReset (s : Program) : Except ProgramFault Program := do
  let s ← close s
  return { s with factoryResets := s.factoryResets + 1 }

/-- A POST for the path. -/
def post (lib : RequestLibrary DataType) (cb : Callbacks) (s : Program) (p : ResourcePath) : Except ProgramFault Program :=
  match lib.post p s.app.tree.objList with
  | none => .ok s
  | some f =>
    if f = cb.unregister then unregister s
    else if f = cb.factoryReset then factoryReset s
    else .error .noFunction

/-- A PUT for the path. -/
def put (lib : RequestLibrary DataType) (s : Program) (p : ResourcePath) (v : String) : Except ProgramFault Program :=
  match putTree lib s.app p v with
  | some app => .ok { s with app := app }
  | none => .error .noFunction

/-- What an action does, if it can happen. -/
def programAct (lib : RequestLibrary DataType) (fmt : ValueFormat) (cb : Callbacks) (s : Program) :
    ProgramAct → Option (Except ProgramFault Program)
  | .initReturn ok =>
    match s.stage with
    | .initialising call => some (initReturn lib cb s call ok)
    | _ => none
  | .connect network =>
    if s.stage = .registering ∧ s.mbedClient.phase = .connecting then some (.ok (connected s network)) else none
  | .client a =>
    if s.stage.Alive ∧ FromClient a then (Client.step s.mbedClient a).map fun m => .ok (s.withClient m) else none
  | .loop a =>
    match s.stage with
    | .looping control => loopAct fmt s control a
    | _ => none
  | .post p => if s.stage.Alive ∧ s.mbedClient.setupCalled then some (post lib cb s p) else none
  | .put p v => if s.stage.Alive ∧ s.mbedClient.setupCalled then some (put lib s p v) else none

/-- One action that does not end the program. -/
def programStep (lib : RequestLibrary DataType) (fmt : ValueFormat) (cb : Callbacks) (s : Program) (a : ProgramAct) :
    Option Program :=
  (programAct lib fmt cb s a).bind Except.toOption

/-! ## The loop of the program -/

def loopActOf : ProgramAct → Option LoopAct
  | .loop a => some a
  | _ => none

/-- The actions of the loop. -/
def loopActs (as : List ProgramAct) : List LoopAct := as.filterMap loopActOf

theorem loopActs_snoc (as : List ProgramAct) (a : ProgramAct) :
    loopActs (as ++ [a]) = loopActs as ++ (loopActOf a).toList := by
  rw [loopActs, loopActs, List.filterMap_append]
  cases h : loopActOf a <;> simp [h]

/-- Where the loop is, if the client has been made. -/
def Stage.control : Stage → Option Control
  | .registering => some .testing
  | .looping c => some c
  | _ => none

/-! ## The resources as registers -/

/-- What an action after those in `pre` writes to the resource of the call `c`. -/
def written (fmt : ValueFormat) (c : AddCall DataType) (pre : List ProgramAct) : ProgramAct → Option String
  | .put p v => if c.path = p ∧ c.allowed.putAllowed then some v else none
  | .loop .publish => writtenValue fmt (publication (loopBoardOps (loopActs pre))) c.path
  | _ => none

/-- The value last written to the resource of `c`, or that of the call. -/
def registerValue (fmt : ValueFormat) (as : List ProgramAct) (c : AddCall DataType) : Option String :=
  (lastWrite (written fmt c) as).or c.value

theorem registerValue_snoc (fmt : ValueFormat) (as : List ProgramAct) (a : ProgramAct) (c : AddCall DataType) :
    registerValue fmt (as ++ [a]) c = (written fmt c as a).or (registerValue fmt as c) := by
  rw [registerValue, lastWrite_snoc, Option.or_assoc]
  rfl

/-- An action that writes nothing. -/
theorem registerValue_other {fmt : ValueFormat} {as : List ProgramAct} {a : ProgramAct} (ha : ∀ c, written fmt c as a = none) :
    registerValue fmt (as ++ [a]) = registerValue fmt as := by
  funext c
  rw [registerValue_snoc, ha, Option.none_or]

section Refines

variable {lib : RequestLibrary DataType} {fmt : ValueFormat} {cb : Callbacks} {capacity : Nat} {as : List ProgramAct}
  {c : Control} {s t : Program}

/-- The client has been made, and the loop has taken the actions in `as`, with the values in the tree. -/
structure Ready (fmt : ValueFormat) (cb : Callbacks) (capacity : Nat) (as : List ProgramAct) (c : Control) (s : Program) :
    Prop where
  client : s.client = true
  loop : ∃ d, run loopStep (.init capacity) (loopActs as) = some ⟨c, s.gapDevice, d⟩ ∧
    Shows cb d.beacons (registerValue fmt as) s.app

/-- Nothing has been done before that. -/
structure Early (fmt : ValueFormat) (capacity : Nat) (as : List ProgramAct) (s : Program) : Prop where
  state : s = { Program.init capacity with stage := s.stage }
  acts : loopActs as = []
  values : registerValue fmt as = AddCall.value

def Refines (fmt : ValueFormat) (cb : Callbacks) (capacity : Nat) (as : List ProgramAct) (s : Program) : Prop :=
  match s.stage.control with
  | some c => Ready fmt cb capacity as c s
  | none => Early fmt capacity as s

theorem Refines.ready (h : Refines fmt cb capacity as s) (hc : s.stage.control = some c) : Ready fmt cb capacity as c s := by
  rw [Refines, hc] at h
  exact h

theorem Refines.early (h : Refines fmt cb capacity as s) (hc : s.stage.control = none) : Early fmt capacity as s := by
  rw [Refines, hc] at h
  exact h

theorem Ready.refines (h : Ready fmt cb capacity as c s) (hc : s.stage.control = some c) : Refines fmt cb capacity as s := by
  rw [Refines, hc]
  exact h

theorem Early.refines (h : Early fmt capacity as s) (hc : s.stage.control = none) : Refines fmt cb capacity as s := by
  rw [Refines, hc]
  exact h

/-- The client's steps do not move the loop. -/
theorem control_withClient (s : Program) (m : SimpleM2MClient) : (s.withClient m).stage.control = s.stage.control := by
  unfold Program.withClient
  split
  · rename_i h
    rw [h.1]
    rfl
  · rfl

/-- The loop takes a step other than a publication. -/
theorem Ready.loopStep {c' : Control} {g : Gap.GapDevice} {b : BeaconState} {a : LoopAct} {stage : Stage}
    (h : Ready fmt cb capacity as c s) (ha : a ≠ .publish)
    (hstep : ∀ d, s.app.beacons = d.beacons →
      ∃ e, Main.loopStep ⟨c, s.gapDevice, d⟩ a = some ⟨c', g, e⟩ ∧ e.beacons = b) :
    Ready fmt cb capacity (as ++ [.loop a]) c'
      { s with stage := stage, gapDevice := g, app := { s.app with beacons := b } } := by
  obtain ⟨d, hrun, hd⟩ := h.loop
  obtain ⟨e, he, rfl⟩ := hstep d hd.beacons
  have hvalues : registerValue fmt (as ++ [.loop a]) = registerValue fmt as := registerValue_other fun c => by
    cases a with
    | publish => exact absurd rfl ha
    | _ => rfl
  refine ⟨h.client, e, ?_, hvalues ▸ hd.withBeacons e.beacons⟩
  rw [loopActs_snoc]
  exact run_snoc.mpr ⟨_, hrun, he⟩

/-- The loop takes no step, and nothing is written. -/
theorem Ready.other {a : ProgramAct} (h : Ready fmt cb capacity as c s) (ha : loopActOf a = none)
    (hvalues : ∀ c, written fmt c as a = none) (hclient : t.client = s.client) (hgap : t.gapDevice = s.gapDevice)
    (happ : t.app = s.app) : Ready fmt cb capacity (as ++ [a]) c t := by
  obtain ⟨d, hrun, hd⟩ := h.loop
  refine ⟨hclient.trans h.client, d, ?_, ?_⟩
  · rw [loopActs_snoc, ha, hgap]
    exact (List.append_nil (loopActs as)).symm ▸ hrun
  · rw [registerValue_other hvalues, happ]
    exact hd

/-- A publication writes what it should. -/
theorem Ready.publish (h : Ready fmt cb capacity as .publishing s) :
    ∃ app n, publishTree fmt s.app = some (app, n) ∧
      Ready fmt cb capacity (as ++ [.loop .publish]) .testing { s with stage := .looping .testing, app := app } := by
  obtain ⟨d, hrun, hd⟩ := h.loop
  have hblank : Shows cb d.beacons (shownOver fmt .blank (registerValue fmt as)) s.app := by
    rw [shownOver_blank]
    exact hd
  obtain ⟨app, happ, hshows⟩ := @shows_publish fmt cb ⟨d.beacons, .blank⟩ _ _ hblank
  rw [beacons_updateBeaconCloudData, cloud_loopPublication hrun] at hshows
  have hvalues : registerValue fmt (as ++ [.loop .publish]) =
      shownOver fmt (publication (loopBoardOps (loopActs as))) (registerValue fmt as) :=
    funext fun c => registerValue_snoc fmt as (.loop .publish) c
  refine ⟨app, _, happ, h.client, _, ?_, hvalues ▸ hshows⟩
  rw [loopActs_snoc]
  exact run_snoc.mpr ⟨_, hrun, loopStep_publish.mpr ⟨rfl, rfl⟩⟩

theorem clearScanCount_eq (d : Device) (a : Gap.Act) :
    clearScanCount d a = { d with beacons := clearedScanCount d.beacons a } := by
  cases a with
  | deliver e p q =>
    obtain ⟨handler, periodic⟩ := e
    cases handler <;> rfl
  | _ => rfl

/-- The report that ends the program, and how. -/
def Crashes (s : Program) (a : ProgramAct) (r : Except ProgramFault Program) : Prop :=
  ∃ now data i, a = .loop (.advertisement now data) ∧ OutOfRange data ∧ s.stage = .looping .running ∧
    (Gap.step s.gapDevice .advertisement).isSome ∧ maxConnectedBeacons ≤ i ∧ r = .error (.beacon (.tblIndex i))

/-- **A step of the loop** is one of `ScanLoop`, on the tree. -/
theorem loopAct_spec {a : LoopAct} {r : Except ProgramFault Program} (h : Ready fmt cb capacity as c s)
    (hstage : s.stage = .looping c) (hr : loopAct fmt s c a = some r) :
    (∃ t c', r = .ok t ∧ t.stage = .looping c' ∧ Ready fmt cb capacity (as ++ [.loop a]) c' t) ∨ Crashes s (.loop a) r := by
  cases a with
  | test registered =>
    rw [loopAct, Option.ite_none_right_eq_some] at hr
    obtain ⟨⟨rfl, _⟩, hr⟩ := hr
    obtain rfl := Option.some.inj hr
    exact Or.inl ⟨_, _, rfl, rfl, h.loopStep (by simp) fun d hd => ⟨d, loopStep_test.mpr ⟨rfl, rfl⟩, hd.symm⟩⟩
  | run =>
    rw [loopAct, Option.ite_none_right_eq_some] at hr
    obtain ⟨rfl, hr⟩ := hr
    obtain ⟨g, hg, rfl⟩ := Option.map_eq_some_iff.mp hr
    exact Or.inl ⟨_, _, rfl, rfl, h.loopStep (by simp) fun d hd => ⟨d, loopStep_run.mpr ⟨rfl, g, hg, rfl⟩, hd.symm⟩⟩
  | gap a =>
    rw [loopAct, Option.ite_none_right_eq_some] at hr
    obtain ⟨hc, hr⟩ := hr
    obtain ⟨g, hg, rfl⟩ := Option.map_eq_some_iff.mp hr
    refine Or.inl ⟨_, _, rfl, rfl, h.loopStep (by simp) fun d hd => ⟨_, loopStep_gap.mpr ⟨hc, g, hg, rfl⟩, ?_⟩⟩
    rw [clearScanCount_eq, hd]
  | advertisement now data =>
    rw [loopAct, Option.ite_none_right_eq_some] at hr
    obtain ⟨rfl, hr⟩ := hr
    obtain ⟨g, hg, rfl⟩ := Option.map_eq_some_iff.mp hr
    by_cases hbad : OutOfRange data
    · obtain ⟨i, hi, hscan⟩ := onScan_outOfRange hbad s.app.beacons now
      refine Or.inr ⟨now, data, i, rfl, hbad, hstage, by rw [hg]; rfl, hi, ?_⟩
      rw [hscan]
    · obtain ⟨b, hscan, _⟩ := (onScan_safe_iff s.app.beacons now data).mpr hbad
      have hrunning : controlAfter g = .running := by
        obtain ⟨hen, rfl⟩ := Gap.step_eq_some.mp hg
        exact if_neg hen.1
      refine Or.inl ⟨s.scanned g b, .running, by rw [hscan], by rw [Program.scanned, hrunning], ?_⟩
      refine h.loopStep (by simp) fun d hd => ⟨{ d with beacons := b }, ?_, rfl⟩
      exact loopStep_advertisement.mpr ⟨rfl, g, hg, b, hd ▸ hscan, rfl⟩
  | publish =>
    rw [loopAct, Option.ite_none_right_eq_some] at hr
    obtain ⟨rfl, hr⟩ := hr
    obtain ⟨app, n, happ, hready⟩ := h.publish
    rw [happ] at hr
    obtain rfl := Option.some.inj hr
    exact Or.inl ⟨_, _, rfl, rfl, hready⟩

/-- **What a POST calls** is one of the two functions, and the one of its path. -/
theorem post_calls {b : BeaconState} {val : AddCall DataType → Option String} {app : Application} {p : ResourcePath}
    {f : Client.Pointer} (h : Shows cb b val app) (hf : lib.post p app.tree.objList = some f) :
    (p = (unregisterCall cb).path ∧ f = cb.unregister) ∨ (p = (factoryResetCall cb).path ∧ f = cb.factoryReset) := by
  obtain ⟨c, hc, rfl, hpost, _, rfl⟩ := h.values.post_calls hf
  simp only [cloudCalls, List.mem_cons, List.mem_append, List.mem_map, List.not_mem_nil, or_false] at hc
  rcases hc with rfl | rfl | ⟨i, _, rfl⟩ | rfl
  · exact Or.inl ⟨rfl, rfl⟩
  · exact Or.inr ⟨rfl, rfl⟩
  · cases hpost
  · cases hpost

/-- The program after a function was called, if one was. -/
def posted (cb : Callbacks) (s : Program) (f : Option Client.Pointer) : Program :=
  { s with closes := s.closes + if f.isSome then 1 else 0
           factoryResets := s.factoryResets + if f = some cb.factoryReset then 1 else 0 }

/-- **A POST calls that function**, through a client that is there. -/
theorem post_eq {b : BeaconState} {val : AddCall DataType → Option String} (h : Shows cb b val s.app)
    (hclient : s.client = true) (p : ResourcePath) :
    post lib cb s p = .ok (posted cb s (lib.post p s.app.tree.objList)) := by
  have hclose : close s = .ok { s with closes := s.closes + 1 } := by rw [close, if_pos hclient]
  unfold post
  cases hf : lib.post p s.app.tree.objList with
  | none => simp [posted]
  | some f =>
    rcases post_calls h hf with ⟨_, rfl⟩ | ⟨_, rfl⟩
    · simp [unregister, hclose, posted, cb.distinct]
    · simp only [if_neg cb.distinct.symm, if_true, factoryReset, hclose, posted, bind, Except.bind]
      rfl

/-- A PUT writes what it should. -/
theorem Ready.put (h : Ready fmt cb capacity as c s) (p : ResourcePath) (v : String) :
    ∃ app, putTree lib s.app p v = some app ∧ Ready fmt cb capacity (as ++ [.put p v]) c { s with app := app } := by
  obtain ⟨d, hrun, hd⟩ := h.loop
  obtain ⟨app, happ, hshows⟩ := shows_put lib hd p v
  refine ⟨app, happ, h.client, d, ?_, ?_⟩
  · rw [loopActs_snoc]
    exact (List.append_nil (loopActs as)).symm ▸ hrun
  · have hvalues : registerValue fmt (as ++ [.put p v]) =
        fun c => if c.path = p ∧ c.allowed.putAllowed then some v else registerValue fmt as c := by
      funext c
      rw [registerValue_snoc, written]
      split <;> rfl
    rw [hvalues]
    exact hshows

theorem ready_prepare (hI : Early fmt capacity as s) (ok : Bool) :
    ∃ t, prepare lib cb s = .ok t ∧ Refines fmt cb capacity (as ++ [.initReturn ok]) t := by
  obtain ⟨tree, htree, hshows⟩ := shows_createResources lib.toClientLibrary cb
  refine ⟨_, by rw [prepare, htree], Ready.refines ⟨rfl, .init, ?_, ?_⟩ rfl⟩
  · rw [loopActs_snoc, hI.acts, hI.state]
    rfl
  · rw [registerValue_other fun _ => rfl, hI.values, hI.state]
    exact hshows

/-- An initialisation returns. -/
theorem initReturn_spec {call : InitCall} (hI : Early fmt capacity as s) (ok : Bool) :
    ∃ t, initReturn lib cb s call ok = .ok t ∧ Refines fmt cb capacity (as ++ [.initReturn ok]) t := by
  have hearly (stage : Stage) : Early fmt capacity (as ++ [.initReturn ok]) { s with stage := stage } := by
    refine ⟨by rw [hI.state], ?_, ?_⟩
    · rw [loopActs_snoc, hI.acts]
      rfl
    · rw [registerValue_other fun _ => rfl]
      exact hI.values
  cases ok with
  | false => exact ⟨_, rfl, (hearly .failed).refines rfl⟩
  | true =>
    cases call with
    | trace => exact ⟨_, rfl, (hearly _).refines rfl⟩
    | storage => exact ⟨_, rfl, (hearly _).refines rfl⟩
    | platform => exact ⟨_, rfl, (hearly _).refines rfl⟩
    | application => exact ready_prepare hI true

theorem Stage.Alive.control {stage : Stage} (h : stage.Alive) : ∃ c, stage.control = some c := by
  rcases h with rfl | ⟨c, rfl, _⟩
  · exact ⟨_, rfl⟩
  · exact ⟨c, rfl⟩

/-- **The program's loop is that of `ScanLoop`**: every action keeps this, and only a bad report ends the program. -/
theorem programAct_spec {a : ProgramAct} {r : Except ProgramFault Program} (h : Refines fmt cb capacity as s)
    (hr : programAct lib fmt cb s a = some r) :
    (∃ t, r = .ok t ∧ Refines fmt cb capacity (as ++ [a]) t) ∨ Crashes s a r := by
  cases a with
  | initReturn ok =>
    rw [programAct] at hr
    split at hr
    · rename_i call hstage
      obtain rfl := Option.some.inj hr
      exact Or.inl (initReturn_spec (h.early (by rw [hstage]; rfl)) ok)
    · cases hr
  | connect network =>
    rw [programAct, Option.ite_none_right_eq_some] at hr
    obtain ⟨⟨hstage, _⟩, hr⟩ := hr
    obtain rfl := Option.some.inj hr
    have hready := h.ready (show s.stage.control = some .testing by rw [hstage]; rfl)
    refine Or.inl ⟨_, rfl, (hready.other (t := connected s network) rfl (fun _ => rfl) rfl rfl rfl).refines ?_⟩
    rw [connected, control_withClient, hstage]
    rfl
  | client a =>
    rw [programAct, Option.ite_none_right_eq_some] at hr
    obtain ⟨⟨halive, _⟩, hr⟩ := hr
    obtain ⟨m, _, rfl⟩ := Option.map_eq_some_iff.mp hr
    obtain ⟨c, hc⟩ := halive.control
    have hready := (h.ready hc).other (t := s.withClient m) (a := .client a) rfl (fun _ => rfl) rfl rfl rfl
    exact Or.inl ⟨_, rfl, hready.refines ((control_withClient s m).trans hc)⟩
  | loop a =>
    rw [programAct] at hr
    split at hr
    · rename_i c hstage
      rcases loopAct_spec (h.ready (by rw [hstage]; rfl)) hstage hr with ⟨t, c', rfl, hstage', ht⟩ | hcrash
      · exact Or.inl ⟨t, rfl, ht.refines (by rw [hstage']; rfl)⟩
      · exact Or.inr hcrash
    · cases hr
  | post p =>
    rw [programAct, Option.ite_none_right_eq_some] at hr
    obtain ⟨⟨halive, _⟩, hr⟩ := hr
    obtain ⟨c, hc⟩ := halive.control
    have hready := h.ready hc
    obtain ⟨d, _, hd⟩ := hready.loop
    rw [post_eq hd hready.client] at hr
    obtain rfl := Option.some.inj hr
    exact Or.inl ⟨_, rfl, (hready.other (t := posted cb s _) rfl (fun _ => rfl) rfl rfl rfl).refines hc⟩
  | put p v =>
    rw [programAct, Option.ite_none_right_eq_some] at hr
    obtain ⟨⟨halive, _⟩, hr⟩ := hr
    obtain ⟨c, hc⟩ := halive.control
    obtain ⟨app, happ, hready⟩ := (h.ready hc).put p v
    rw [put, happ] at hr
    obtain rfl := Option.some.inj hr
    exact Or.inl ⟨_, rfl, hready.refines hc⟩

theorem refines_init : Refines fmt cb capacity [] (.init capacity) := Early.refines ⟨rfl, rfl, rfl⟩ rfl

theorem refines_step {a : ProgramAct} (hI : Refines fmt cb capacity as s) (h : programStep lib fmt cb s a = some t) :
    Refines fmt cb capacity (as ++ [a]) t := by
  obtain ⟨r, hr, hok⟩ := Option.bind_eq_some_iff.mp h
  rcases programAct_spec hI hr with ⟨t', rfl, ht'⟩ | ⟨_, _, _, _, _, _, _, _, rfl⟩
  · obtain rfl := Option.some.inj hok
    exact ht'
  · cases hok

theorem refines_run (h : run (programStep lib fmt cb) (.init capacity) as = some s) : Refines fmt cb capacity as s :=
  run_history (Refines fmt cb capacity) refines_init (fun _ _ _ _ => refines_step) h

/-! ## Faults and the cloud -/

/-- **Nothing but a report with an index past the table ends the program**, in any state of any run: no call goes through a
NULL `client` or a NULL resource, and no resource calls an address that is not one of the two functions. -/
theorem program_faults_iff (h : run (programStep lib fmt cb) (.init capacity) as = some s) (a : ProgramAct) :
    (∃ f, programAct lib fmt cb s a = some (.error f)) ↔
      ∃ now data, a = .loop (.advertisement now data) ∧ OutOfRange data ∧ s.stage = .looping .running ∧
        (Gap.step s.gapDevice .advertisement).isSome := by
  constructor
  · rintro ⟨f, hf⟩
    rcases programAct_spec (refines_run h) hf with ⟨t, ht, _⟩ | ⟨now, data, _, ha, hbad, hstage, hgap, _⟩
    · cases ht
    · exact ⟨now, data, ha, hbad, hstage, hgap⟩
  · rintro ⟨now, data, rfl, hbad, hstage, hgap⟩
    obtain ⟨g, hg⟩ := Option.isSome_iff_exists.mp hgap
    obtain ⟨i, _, hscan⟩ := onScan_outOfRange hbad s.app.beacons now
    refine ⟨.beacon (.tblIndex i), ?_⟩
    rw [programAct, hstage]
    simp only [loopAct, if_pos, hg, Option.map_some, hscan]

/-- **Every resource is a register that the device and the cloud write**: in every run of the program, from the creation of
the resources on, each has the value last written to it, by a PUT or by a publication, or the one it was created with. -/
theorem program_cloud (h : run (programStep lib fmt cb) (.init capacity) as = some s) (hc : s.stage.control = some c) :
    Client.Holds (cloudCalls cb) (registerValue fmt as) s.app.tree.objList := by
  obtain ⟨d, _, hd⟩ := ((refines_run h).ready hc).loop
  exact hd.values

end Refines

/-- Initialisation, registration, a scan that cannot be initialised, and a publication. -/
def firstCycle : List ProgramAct :=
  [.initReturn true, .initReturn true, .initReturn true, .initReturn true, .connect ⟨true, fun _ => 0⟩,
    .client (.setupReturn true), .client .assign, .client .ret, .loop (.test true), .loop .run,
    .loop (.gap (.initReturn true))]

def plainFormat : ValueFormat := ⟨fun q => toString q.num, toString⟩

def someCallbacks : Callbacks := ⟨1, 2, by decide⟩

/-- A POST for the first resource does not end the program. -/
theorem program_faults_iff_firstCycle :
    ∃ s, run (programStep .plain plainFormat someCallbacks) (.init 32) firstCycle = some s ∧
      ¬∃ f, programAct .plain plainFormat someCallbacks s (.post ⟨5000, 0, 1⟩) = some (.error f) := by
  obtain ⟨s, hs⟩ := Option.isSome_iff_exists.mp (show (run (programStep .plain plainFormat someCallbacks) (.init 32)
    firstCycle).isSome = true from rfl)
  refine ⟨s, hs, fun hfault => ?_⟩
  obtain ⟨_, _, ha, _⟩ := (program_faults_iff hs _).mp hfault
  cases ha

/-- The cloud writes a temperature that has not been reported, and the device publishes. -/
theorem program_cloud_firstCycle :
    ∃ s, run (programStep .plain plainFormat someCallbacks) (.init 32)
        (firstCycle ++ [.put ⟨3303, 4, 5700⟩ "21", .loop .publish]) = some s ∧
      Client.Holds (cloudCalls someCallbacks)
        (registerValue plainFormat (firstCycle ++ [.put ⟨3303, 4, 5700⟩ "21", .loop .publish])) s.app.tree.objList := by
  obtain ⟨s, hs⟩ := Option.isSome_iff_exists.mp (show (run (programStep .plain plainFormat someCallbacks) (.init 32)
    (firstCycle ++ [.put ⟨3303, 4, 5700⟩ "21", .loop .publish])).isSome = true from rfl)
  have hstage : (run (programStep .plain plainFormat someCallbacks) (.init 32)
    (firstCycle ++ [.put ⟨3303, 4, 5700⟩ "21", .loop .publish])).map (fun s => s.stage.control) = some (some .testing) := rfl
  rw [hs] at hstage
  exact ⟨s, hs, program_cloud hs (Option.some.inj hstage)⟩

end PelionClient.Main
