import PelionClient.Client.Resource

/-!
# The value of a resource

The client library keeps the value of a resource and serves the requests of the server for it. Its code is not here, so this
is what it is documented to do: `set_value` sets the value of a resource (`setValue`), a PUT does the same from outside, and
a POST calls a function. Which function a request calls, and what else the library does with it, is a parameter
(`RequestLibrary`).

What `add_resource` returns is a pointer to the resource that it has put in the tree; here it is the path, and NULL is
`none`. No resource is ever taken out of the tree, so a pointer that was returned stays good (`Holds.setValue`): setting a
value through it changes the value of that resource and of no other. So does a PUT (`Holds.put`).
-/

namespace PelionClient.Client

open Lib

variable {τ : Type*}

structure ResourcePath where
  objectId : UInt16
  instanceId : UInt16
  resourceId : UInt16
deriving DecidableEq, Repr

/-- `M2MResource *` -/
abbrev ResourcePointer := Option ResourcePath

def AddCall.path (c : AddCall τ) : ResourcePath := ⟨c.objectId, c.instanceId, c.resourceId⟩

/-- The entry has the path. -/
def Entry.At (p : ResourcePath) (e : Entry τ) : Prop :=
  e.object = decimalName p.objectId ∧ e.instanceId = p.instanceId ∧ e.resource.name = decimalName p.resourceId

instance (p : ResourcePath) (e : Entry τ) : Decidable (e.At p) := inferInstanceAs (Decidable (_ ∧ _ ∧ _))

/-- The resource at the path gets the value. -/
def Resource.setAt (object : List Char) (instanceId : UInt16) (p : ResourcePath) (v : String) (r : Resource τ) :
    Resource τ :=
  if (⟨object, instanceId, r⟩ : Entry τ).At p then { r with value := some v } else r

def ObjectInstance.setAt (object : List Char) (p : ResourcePath) (v : String) (inst : ObjectInstance τ) :
    ObjectInstance τ :=
  ⟨inst.instanceId, inst.resources.map (Resource.setAt object inst.instanceId p v)⟩

def Object.setAt (p : ResourcePath) (v : String) (object : Object τ) : Object τ :=
  ⟨object.name, object.instances.map (ObjectInstance.setAt object.name p v)⟩

/-- `resource->set_value(v)`, as the library documents it; a call through NULL, or through a pointer to no resource of the
tree, is `none`. -/
def setValue (pointer : ResourcePointer) (v : String) (list : List (Object τ)) : Option (List (Object τ)) :=
  pointer.bind fun p => if ∃ e ∈ entries list, e.At p then some (list.map (Object.setAt p v)) else none

/-- `add_cloud_resource` with the pointer that it returns. -/
def addCloudResourcePtr (lib : ClientLibrary) (list : List (Object τ)) (c : AddCall τ) :
    Option (List (Object τ) × ResourcePointer) :=
  (addCloudResource lib list c).map fun list' => (list', some c.path)

/-! ## What is in the tree -/

/-- The entry with another value. -/
def Entry.withValue (e : Entry τ) (v : Option String) : Entry τ := { e with resource := { e.resource with value := v } }

def Entry.setAt (p : ResourcePath) (v : String) (e : Entry τ) : Entry τ := if e.At p then e.withValue (some v) else e

/-! ## Requests -/

def Entry.AllowsPost (e : Entry τ) : Prop := e.resource.operation.any (·.postAllowed) = true

def Entry.AllowsPut (e : Entry τ) : Prop := e.resource.operation.any (·.putAllowed) = true

instance (e : Entry τ) : Decidable e.AllowsPost := inferInstanceAs (Decidable (_ = true))

instance (e : Entry τ) : Decidable e.AllowsPut := inferInstanceAs (Decidable (_ = true))

/-- The entry after a PUT of the value for the path. -/
def Entry.putAt (p : ResourcePath) (v : String) (e : Entry τ) : Entry τ :=
  if e.At p ∧ e.AllowsPut then e.withValue (some v) else e

/-- The client library as it serves requests, on the tree of resources, with what is documented of it. -/
structure RequestLibrary (τ : Type*) extends ClientLibrary where
  /-- The function that a POST for the path calls, if it calls one. -/
  post : ResourcePath → List (Object τ) → Option Pointer
  /-- The tree after a PUT of the value for the path, and the function that is called with it, if one is. -/
  put : ResourcePath → String → List (Object τ) → List (Object τ) × Option Pointer
  /-- A POST calls the execute function of a resource at the path that allows POST, and no other. -/
  post_calls : ∀ {p list f}, post p list = some f →
    ∃ e ∈ entries list, e.At p ∧ e.AllowsPost ∧ e.resource.executeFunction = some f
  /-- That of the one resource at the path it does call, unless it is NULL. -/
  post_executes : ∀ {p list e f}, e ∈ entries list → e.At p → (∀ d ∈ entries list, d.At p → d = e) → e.AllowsPost →
    e.resource.executeFunction = some f → f ≠ 0 → post p list = some f
  /-- A PUT calls the value-updated function of a resource at the path that allows PUT, unless it is NULL, and no other. -/
  put_calls : ∀ {p v list f}, (put p v list).2 = some f →
    f ≠ 0 ∧ ∃ e ∈ entries list, e.At p ∧ e.AllowsPut ∧ e.resource.valueUpdatedFunction = some f
  /-- It sets the value of the one resource at the path, if that allows PUT, and changes nothing else. -/
  put_writes : ∀ {p v list}, (∀ d ∈ entries list, ∀ e ∈ entries list, d.At p → e.At p → d = e) →
    (entries (put p v list).1).Perm ((entries list).map (Entry.putAt p v))

/-! ## The entries of a tree -/

theorem entries_setAt (p : ResourcePath) (v : String) (list : List (Object τ)) :
    entries (list.map (Object.setAt p v)) = (entries list).map (Entry.setAt p v) := by
  have hinst : ∀ (name : List Char) (inst : ObjectInstance τ),
      (inst.setAt name p v).entries name = (inst.entries name).map (Entry.setAt p v) := fun name inst => by
    simp only [ObjectInstance.entries, ObjectInstance.setAt, List.map_map]
    refine List.map_congr_left fun r _ => ?_
    simp only [Function.comp_apply, Resource.setAt, Entry.setAt]
    split <;> rfl
  have hobject : ∀ object : Object τ, (object.setAt p v).entries = object.entries.map (Entry.setAt p v) := fun object => by
    simp only [Object.entries, Object.setAt, List.flatMap_map, List.map_flatMap, hinst]
  simp only [entries, List.flatMap_map, List.map_flatMap, hobject]

/-- The tree has the resources of the calls `cs`, with the values `val`. -/
def Holds (cs : List (AddCall τ)) (val : AddCall τ → Option String) (list : List (Object τ)) : Prop :=
  (entries list).Perm (cs.map fun c => c.entry.withValue (val c))

/-- At first each has the value of its call. -/
theorem Built.holds {lib : ClientLibrary} {cs : List (AddCall τ)} {list : List (Object τ)} (hb : Built lib cs list) :
    Holds cs AddCall.value list := hb.resources

theorem at_entry_iff {c : AddCall τ} {p : ResourcePath} {v : Option String} : (c.entry.withValue v).At p ↔ c.path = p := by
  constructor
  · rintro ⟨hobject, hinst, hname⟩
    obtain ⟨o, i, r⟩ := p
    simp only [AddCall.path, ResourcePath.mk.injEq]
    exact ⟨decimalName_injective hobject, hinst, decimalName_injective hname⟩
  · rintro rfl
    exact ⟨rfl, rfl, rfl⟩

/-- **A value set through a pointer is the value of that resource**, and the other resources keep theirs. -/
theorem Holds.setValue {cs : List (AddCall τ)} {val : AddCall τ → Option String} {list : List (Object τ)}
    (h : Holds cs val list) {c : AddCall τ} (hc : c ∈ cs) (v : String) :
    ∃ list', Client.setValue (some c.path) v list = some list' ∧
      Holds cs (fun d => if d.path = c.path then some v else val d) list' := by
  have hmem : ∃ e ∈ entries list, e.At c.path :=
    ⟨_, h.symm.subset (List.mem_map_of_mem hc), at_entry_iff.mpr rfl⟩
  refine ⟨list.map (Object.setAt c.path v), if_pos hmem, ?_⟩
  rw [Holds, entries_setAt]
  refine (h.map _).trans (List.Perm.of_eq ?_)
  rw [List.map_map]
  refine List.map_congr_left fun d _ => ?_
  simp only [Function.comp_apply, Entry.setAt, at_entry_iff]
  split <;> rfl

section Requests

variable {lib : RequestLibrary τ} {cs : List (AddCall τ)} {val : AddCall τ → Option String} {list : List (Object τ)}
  {p : ResourcePath} {f : Pointer}

/-- The entries at a path are those of the calls with the path. -/
theorem Holds.mem_at (h : Holds cs val list) {e : Entry τ} (he : e ∈ entries list) (hp : e.At p) :
    ∃ c ∈ cs, c.path = p ∧ e = c.entry.withValue (val c) := by
  obtain ⟨c, hc, rfl⟩ := List.mem_map.mp (h.subset he)
  exact ⟨c, hc, at_entry_iff.mp hp, rfl⟩

theorem AddCall.allowsPut_iff {c : AddCall τ} {v : Option String} :
    (c.entry.withValue v).AllowsPut ↔ c.allowed.putAllowed = true := by
  simp [Entry.AllowsPut, Entry.withValue, AddCall.entry, AddCall.resource]

theorem AddCall.allowsPost_iff {c : AddCall τ} {v : Option String} :
    (c.entry.withValue v).AllowsPost ↔ c.allowed.postAllowed = true := by
  simp [Entry.AllowsPost, Entry.withValue, AddCall.entry, AddCall.resource]

/-- **A POST calls the function of a call with its path** that allows POST and not PUT, and no other. -/
theorem Holds.post_calls (h : Holds cs val list) (hf : lib.post p list = some f) :
    ∃ c ∈ cs, c.path = p ∧ c.allowed.postAllowed = true ∧ c.allowed.putAllowed = false ∧ c.cb = f := by
  obtain ⟨e, he, hat, hpost, hexec⟩ := lib.post_calls hf
  obtain ⟨c, hc, hpath, rfl⟩ := h.mem_at he hat
  refine ⟨c, hc, hpath, AddCall.allowsPost_iff.mp hpost, ?_⟩
  cases hput : c.allowed.putAllowed <;> simp [Entry.withValue, AddCall.entry, AddCall.resource, hput] at hexec ⊢
  exact hexec.2

/-- And of the one with its path it does call it. -/
theorem Holds.post_executes (h : Holds cs val list) {c : AddCall τ} (hc : c ∈ cs)
    (hone : ∀ d ∈ cs, d.path = c.path → d = c) (hpost : c.allowed.postAllowed = true)
    (hput : c.allowed.putAllowed = false) (hcb : c.cb ≠ 0) : lib.post c.path list = some c.cb := by
  refine lib.post_executes (h.symm.subset (List.mem_map_of_mem hc)) (at_entry_iff.mpr rfl) (fun e he hat => ?_)
    (AddCall.allowsPost_iff.mpr hpost) ?_ hcb
  · obtain ⟨d, hd, hpath, rfl⟩ := h.mem_at he hat
    rw [hone d hd hpath]
  · simp [Entry.withValue, AddCall.entry, AddCall.resource, hpost, hput]

/-- **A PUT calls the function of a call with its path** that allows PUT, if it calls one. -/
theorem Holds.put_calls (h : Holds cs val list) {v : String} (hf : (lib.put p v list).2 = some f) :
    f ≠ 0 ∧ ∃ c ∈ cs, c.path = p ∧ c.allowed.putAllowed = true ∧ c.cb = f := by
  obtain ⟨hnull, e, he, hat, hput, hupdated⟩ := lib.put_calls hf
  obtain ⟨c, hc, hpath, rfl⟩ := h.mem_at he hat
  have hallowed := AddCall.allowsPut_iff.mp hput
  refine ⟨hnull, c, hc, hpath, hallowed, ?_⟩
  simpa [Entry.withValue, AddCall.entry, AddCall.resource, hallowed] using hupdated

/-- **The value that a PUT sets is that of the resource at its path**, if that allows PUT, and the other resources keep
theirs. -/
theorem Holds.put (lib : RequestLibrary τ) (h : Holds cs val list) (p : ResourcePath) (v : String)
    (hone : ∀ c ∈ cs, ∀ d ∈ cs, c.path = p → d.path = p → c = d) :
    Holds cs (fun d => if d.path = p ∧ d.allowed.putAllowed = true then some v else val d) (lib.put p v list).1 := by
  have hsame : ∀ d ∈ entries list, ∀ e ∈ entries list, d.At p → e.At p → d = e := by
    intro d hd e he hat hat'
    obtain ⟨c, hc, hpath, rfl⟩ := h.mem_at hd hat
    obtain ⟨c', hc', hpath', rfl⟩ := h.mem_at he hat'
    rw [hone c hc c' hc' hpath hpath']
  refine (lib.put_writes hsame).trans ((h.map _).trans (List.Perm.of_eq ?_))
  rw [List.map_map]
  refine List.map_congr_left fun d _ => ?_
  simp only [Function.comp_apply, Entry.putAt, at_entry_iff, AddCall.allowsPut_iff]
  split <;> rfl

end Requests

/-! ## A library -/

section Plain

variable {p : ResourcePath} {v : String} {list : List (Object τ)}

/-- The first resource at the path. -/
def entryAt (p : ResourcePath) (list : List (Object τ)) : Option (Entry τ) := (entries list).find? fun e => e.At p

theorem mem_of_entryAt {e : Entry τ} (h : entryAt p list = some e) : e ∈ entries list ∧ e.At p :=
  ⟨List.mem_of_find?_eq_some h, by simpa using List.find?_some h⟩

/-- A PUT on the first resource at the path. -/
def putFirst (p : ResourcePath) (v : String) (list : List (Object τ)) : List (Object τ) × Option Pointer :=
  match entryAt p list with
  | some e =>
    if e.AllowsPut then (list.map (Object.setAt p v), e.resource.valueUpdatedFunction.filter (· ≠ 0)) else (list, none)
  | none => (list, none)

theorem putFirst_calls {f : Pointer} (h : (putFirst p v list).2 = some f) :
    f ≠ 0 ∧ ∃ e ∈ entries list, e.At p ∧ e.AllowsPut ∧ e.resource.valueUpdatedFunction = some f := by
  unfold putFirst at h
  split at h
  · rename_i e he
    obtain ⟨hmem, hat⟩ := mem_of_entryAt he
    split at h
    · rename_i hput
      obtain ⟨hf, hnull⟩ := Option.filter_eq_some_iff.mp h
      exact ⟨of_decide_eq_true hnull, e, hmem, hat, hput, hf⟩
    · cases h
  · cases h

theorem putFirst_writes (hone : ∀ d ∈ entries list, ∀ e ∈ entries list, d.At p → e.At p → d = e) :
    (entries (putFirst p v list).1).Perm ((entries list).map (Entry.putAt p v)) := by
  have hsame (hno : ∀ e ∈ entries list, ¬(e.At p ∧ e.AllowsPut)) :
      (entries list).Perm ((entries list).map (Entry.putAt p v)) := by
    refine List.Perm.of_eq ((List.map_id _).symm.trans (List.map_congr_left fun e he => ?_))
    exact (if_neg (hno e he)).symm
  unfold putFirst
  split
  · rename_i e he
    obtain ⟨hmem, hat⟩ := mem_of_entryAt he
    split
    · rename_i hput
      rw [entries_setAt]
      refine List.Perm.of_eq (List.map_congr_left fun d hd => ?_)
      unfold Entry.setAt Entry.putAt
      by_cases hd' : d.At p
      · rw [if_pos hd', if_pos ⟨hd', hone e hmem d hd hat hd' ▸ hput⟩]
      · rw [if_neg hd', if_neg fun hand => hd' hand.1]
    · rename_i hput
      exact hsame fun d hd hand => hput (hone d hd e hmem hand.1 hat ▸ hand.2)
  · rename_i hnone
    exact hsame fun d hd hand => List.find?_eq_none.mp hnone d hd (decide_eq_true hand.1)

/-- A library that serves a request on the first resource at its path. -/
def RequestLibrary.plain : RequestLibrary τ where
  toClientLibrary := .ofDigits
  post p list := (entryAt p list).bind fun e => if e.AllowsPost then e.resource.executeFunction else none
  put := putFirst
  post_calls h := by
    obtain ⟨e, he, hf⟩ := Option.bind_eq_some_iff.mp h
    obtain ⟨hpost, hf⟩ := Option.ite_none_right_eq_some.mp hf
    exact ⟨e, (mem_of_entryAt he).1, (mem_of_entryAt he).2, hpost, hf⟩
  post_executes {p list e f} hmem hat hone hpost hf _ := by
    cases hfind : entryAt p list with
    | none => exact absurd (decide_eq_true hat) (List.find?_eq_none.mp hfind e hmem)
    | some d =>
      obtain ⟨hd, hdat⟩ := mem_of_entryAt hfind
      obtain rfl := hone d hd hdat
      exact (if_pos hpost).trans hf
  put_calls := putFirst_calls
  put_writes := putFirst_writes

end Plain

end PelionClient.Client
