import Mathlib.Data.List.Dedup
import PelionClient.Lib.Keyed
import PelionClient.Lib.Run

/-!
# The tree of resources (`add_resource`)

A call of `add_resource` finds or creates an object of the list and an instance of that object, and creates the resource
there. One buffer of six bytes serves for the names of the object and of the resource; a 16-bit id always fits in it
(`nameOf_eq`). After calls with distinct ids, in any order, the tree has what the calls describe and nothing else
(`Built`): one call more puts its own resource in the tree and leaves the others alone (`addResource_built`). The main
result is `resources_faithful`.

The client library is not part of the repository. Of its objects the model has the name and the instances, of an instance
the id and the resources, of a resource what `add_resource` gives it; a lookup is by id or by name, and a new element goes
to the end of its list. What number a name has is a parameter (`ClientLibrary`).
-/

namespace PelionClient.Client

open Lib

variable {τ : Type*}

/-! ## The library's data -/

/-- The bits of `M2MBase::Operation`. -/
structure Operation where
  getAllowed : Bool
  putAllowed : Bool
  postAllowed : Bool
  deleteAllowed : Bool
deriving DecidableEq, Repr

/-- A function pointer as a number; NULL is 0. -/
abbrev Pointer := Nat

/-- A resource. What nobody has set is `none`. -/
structure Resource (τ : Type*) where
  name : List Char
  resourceType : String
  dataType : τ
  observable : Bool
  value : Option String
  operation : Option Operation
  messageStatusCb : Option Pointer
  valueUpdatedFunction : Option Pointer
  executeFunction : Option Pointer
deriving DecidableEq, Repr

structure ObjectInstance (τ : Type*) where
  instanceId : UInt16
  resources : List (Resource τ)
deriving DecidableEq, Repr

structure Object (τ : Type*) where
  name : List Char
  instances : List (ObjectInstance τ)
deriving DecidableEq, Repr

/-- What the library says of names: the one that is a number in decimal has this number as its id. -/
structure ClientLibrary where
  /-- `name_id` -/
  nameId : List Char → Int
  nameId_decimal : ∀ id : UInt16, nameId (Nat.toDigits 10 id.toNat) = id.toNat

/-- A library that reads every name as digits. -/
def ClientLibrary.ofDigits : ClientLibrary where
  nameId name := Nat.ofDigitChars 10 name 0
  nameId_decimal id := by rw [Nat.ofDigitChars_ten_toDigits]

def createObject (name : List Char) : Object τ := ⟨name, []⟩

def createObjectInstance (instanceId : UInt16) : ObjectInstance τ := ⟨instanceId, []⟩

/-- A resource as the library creates it. -/
def dynamicResource (name : List Char) (resourceType : String) (dataType : τ) (observable : Bool) : Resource τ :=
  ⟨name, resourceType, dataType, observable, none, none, none, none, none⟩

/-- `create_dynamic_resource`; it gives NULL if the instance has a resource with the name. -/
def createDynamicResource (inst : ObjectInstance τ) (name : List Char) (resourceType : String) (dataType : τ)
    (observable : Bool) : Option (Resource τ) :=
  if inst.resources.any (·.name = name) then none else some (dynamicResource name resourceType dataType observable)

/-! ## `add_resource` -/

/-- The arguments after the list. -/
structure AddCall (τ : Type*) where
  objectId : UInt16
  instanceId : UInt16
  resourceId : UInt16
  resourceType : String
  dataType : τ
  allowed : Operation
  /-- A string without NUL, or NULL. -/
  value : Option String
  observable : Bool
  cb : Pointer
  messageStatusCb : Pointer
deriving DecidableEq, Repr

/-- `snprintf(name, 6, "%d", id)`: at most five characters and a NUL. -/
def nameOf (id : UInt16) : List Char := (Nat.toDigits 10 id.toNat).take 5

/-- What `add_resource` sets on the resource it has created. -/
def setUp (c : AddCall τ) (resource : Resource τ) : Resource τ :=
  let resource := match c.value with
    | some value => { resource with value := some value }
    | none => resource
  let resource := { resource with operation := some c.allowed }
  let resource := { resource with messageStatusCb := some c.messageStatusCb }
  if c.allowed.putAllowed then { resource with valueUpdatedFunction := some c.cb }
  else if c.allowed.postAllowed then { resource with executeFunction := some c.cb }
  else resource

/-- The part inside the instance; `none` is a call through NULL. -/
def addToInstance (c : AddCall τ) (inst : ObjectInstance τ) : Option (ObjectInstance τ) :=
  (createDynamicResource inst (nameOf c.resourceId) c.resourceType c.dataType c.observable).map fun resource =>
    ⟨inst.instanceId, inst.resources ++ [setUp c resource]⟩

/-- The part inside the object. -/
def addToObject (c : AddCall τ) (object : Object τ) : Option (Object τ) :=
  (findOrCreate ObjectInstance.instanceId c.instanceId (createObjectInstance c.instanceId) (addToInstance c)
    object.instances).map fun instances => ⟨object.name, instances⟩

/-- `add_resource`: the list after it and the resource it returns. -/
def addResource (lib : ClientLibrary) (list : List (Object τ)) (c : AddCall τ) :
    Option (List (Object τ) × Resource τ) :=
  (findOrCreate (fun object => lib.nameId object.name) (c.objectId.toNat : Int) (createObject (nameOf c.objectId))
    (addToObject c) list).map fun list' =>
      (list', setUp c (dynamicResource (nameOf c.resourceId) c.resourceType c.dataType c.observable))

/-- `add_cloud_resource`, by what it does to `_obj_list`. -/
def addCloudResource (lib : ClientLibrary) (list : List (Object τ)) (c : AddCall τ) : Option (List (Object τ)) :=
  (addResource lib list c).map Prod.fst

/-! ## Paths -/

/-- A resource with the path to it. -/
structure Entry (τ : Type*) where
  object : List Char
  instanceId : UInt16
  resource : Resource τ
deriving DecidableEq, Repr

def ObjectInstance.entries (object : List Char) (inst : ObjectInstance τ) : List (Entry τ) :=
  inst.resources.map fun resource => ⟨object, inst.instanceId, resource⟩

def Object.entries (object : Object τ) : List (Entry τ) := object.instances.flatMap fun inst => inst.entries object.name

/-- The resources of the tree. -/
def entries (list : List (Object τ)) : List (Entry τ) := list.flatMap Object.entries

/-- The instances of the tree, each with its object. -/
def instancePaths (list : List (Object τ)) : List (List Char × UInt16) :=
  list.flatMap fun object => object.instances.map fun inst => (object.name, inst.instanceId)

/-! ## What a call asks for -/

/-- All digits of an id. -/
def decimalName (id : UInt16) : List Char := Nat.toDigits 10 id.toNat

def AddCall.triple (c : AddCall τ) : UInt16 × UInt16 × UInt16 := (c.objectId, c.instanceId, c.resourceId)

/-- The resource of a call: its own value, operations and callbacks. -/
def AddCall.resource (c : AddCall τ) : Resource τ where
  name := decimalName c.resourceId
  resourceType := c.resourceType
  dataType := c.dataType
  observable := c.observable
  value := c.value
  operation := some c.allowed
  messageStatusCb := some c.messageStatusCb
  valueUpdatedFunction := if c.allowed.putAllowed then some c.cb else none
  executeFunction := if !c.allowed.putAllowed && c.allowed.postAllowed then some c.cb else none

def AddCall.entry (c : AddCall τ) : Entry τ := ⟨decimalName c.objectId, c.instanceId, c.resource⟩

/-- The tree has one object for each object id of the calls, one instance for each pair of ids and one resource for each
call. -/
structure Mirrors (cs : List (AddCall τ)) (list : List (Object τ)) : Prop where
  objects : (list.map Object.name).Perm ((cs.map AddCall.objectId).dedup.map decimalName)
  instances : (instancePaths list).Perm
    ((cs.map fun c => (c.objectId, c.instanceId)).dedup.map fun p => (decimalName p.1, p.2))
  resources : (entries list).Perm (cs.map AddCall.entry)

/-! ## Names -/

/-- **The buffer never cuts a name off.** -/
theorem nameOf_eq (id : UInt16) : nameOf id = decimalName id := by
  have hlt : id.toNat < 10 ^ 5 := by
    have := id.toNat_lt
    omega
  have hlen : (Nat.toDigits 10 id.toNat).length ≤ 5 :=
    (Nat.length_toDigits_le_iff (by omega) (by omega)).mpr hlt
  exact List.take_of_length_le hlen

example : nameOf 65535 = ['6', '5', '5', '3', '5'] := by decide

theorem decimalName_injective : Function.Injective decimalName := by
  intro a b h
  have hread := congrArg (fun name => Nat.ofDigitChars 10 name 0) h
  simp only [decimalName, Nat.ofDigitChars_ten_toDigits] at hread
  exact UInt16.toNat_inj.mp hread

/-- The loop of `add_resource` tells the ids apart. -/
theorem nameId_eq_iff (lib : ClientLibrary) {a b : UInt16} : lib.nameId (decimalName a) = (b.toNat : Int) ↔ a = b := by
  rw [decimalName, lib.nameId_decimal]
  constructor
  · intro h
    exact UInt16.toNat_inj.mp (by omega)
  · rintro rfl
    rfl

/-- A path belongs to one triple of ids. -/
theorem triple_eq {c d : AddCall τ} (hobject : decimalName c.objectId = decimalName d.objectId)
    (hinst : c.instanceId = d.instanceId) (hname : decimalName c.resourceId = decimalName d.resourceId) :
    c.triple = d.triple := by
  rw [AddCall.triple, AddCall.triple, decimalName_injective hobject, hinst, decimalName_injective hname]

/-! ## One call -/

/-- The setters make the resource of the call. -/
theorem setUp_eq (c : AddCall τ) :
    setUp c (dynamicResource (nameOf c.resourceId) c.resourceType c.dataType c.observable) = c.resource := by
  rw [nameOf_eq]
  cases hv : c.value <;> cases hput : c.allowed.putAllowed <;> cases hpost : c.allowed.postAllowed <;>
    simp [setUp, dynamicResource, AddCall.resource, hv, hput, hpost]

/-- In an instance without the name, the resource of the call comes last. -/
theorem addToInstance_of_new {c : AddCall τ} {inst : ObjectInstance τ}
    (h : ∀ r ∈ inst.resources, r.name ≠ decimalName c.resourceId) :
    addToInstance c inst = some ⟨inst.instanceId, inst.resources ++ [c.resource]⟩ := by
  have hany : inst.resources.any (·.name = nameOf c.resourceId) = false := by
    rw [nameOf_eq, List.any_eq_false]
    intro r hr
    simpa using h r hr
  rw [addToInstance, createDynamicResource, if_neg (by simp [hany]), Option.map_some, setUp_eq]

theorem addToInstance_eq_some {c : AddCall τ} {inst inst' : ObjectInstance τ} (h : addToInstance c inst = some inst') :
    inst'.instanceId = inst.instanceId ∧ inst'.resources = inst.resources ++ [c.resource] := by
  rw [addToInstance, createDynamicResource] at h
  split at h
  · cases h
  · rw [Option.map_some, setUp_eq] at h
    cases h
    exact ⟨rfl, rfl⟩

theorem addToObject_eq_some {c : AddCall τ} {object object' : Object τ} (h : addToObject c object = some object') :
    object'.name = object.name ∧ findOrCreate ObjectInstance.instanceId c.instanceId (createObjectInstance c.instanceId)
      (addToInstance c) object.instances = some object'.instances := by
  obtain ⟨instances, hfind, rfl⟩ := Option.map_eq_some_iff.mp h
  exact ⟨rfl, hfind⟩

/-- What a call adds to an object is its own resource. -/
theorem addToObject_entries {c : AddCall τ} {object object' : Object τ} (hname : object.name = decimalName c.objectId)
    (h : addToObject c object = some object') : object'.entries.Perm (c.entry :: object.entries) := by
  obtain ⟨hkeep, hfind⟩ := addToObject_eq_some h
  rw [Object.entries, Object.entries, hkeep]
  refine findOrCreate_parts hfind rfl ?_
  intro inst inst' hinst hadd
  have hid : inst.instanceId = c.instanceId := by
    rcases hinst with ⟨_, hid⟩ | rfl
    · exact hid
    · rfl
  obtain ⟨hid', hres⟩ := addToInstance_eq_some hadd
  have hentry : c.entry = ⟨object.name, inst.instanceId, c.resource⟩ := by
    rw [AddCall.entry, hname, hid]
  rw [ObjectInstance.entries, ObjectInstance.entries, hid', hres, List.map_append, List.map_singleton, hentry]
  exact List.perm_append_comm

/-! ## The tree after the calls -/

/-- The tree after the calls `cs`. -/
structure Built (lib : ClientLibrary) (cs : List (AddCall τ)) (list : List (Object τ)) : Prop where
  resources : (entries list).Perm (cs.map AddCall.entry)
  objects : (list.map fun object => lib.nameId object.name).Nodup
  instances : ∀ object ∈ list, (object.instances.map ObjectInstance.instanceId).Nodup
  /-- Nothing in the tree is empty. -/
  nonempty : ∀ object ∈ list, object.instances ≠ [] ∧ ∀ inst ∈ object.instances, inst.resources ≠ []

section Built

variable {lib : ClientLibrary} {cs : List (AddCall τ)} {list : List (Object τ)}

theorem built_nil (lib : ClientLibrary) : Built (τ := τ) lib [] [] := by
  refine ⟨List.Perm.refl _, List.nodup_nil, ?_, ?_⟩ <;> simp

theorem mem_entries {e : Entry τ} : e ∈ entries list ↔ ∃ object ∈ list, ∃ inst ∈ object.instances,
    ∃ resource ∈ inst.resources, e = ⟨object.name, inst.instanceId, resource⟩ := by
  simp only [entries, Object.entries, ObjectInstance.entries, List.mem_flatMap, List.mem_map, eq_comm]

/-- A resource of the tree is the one of a call. -/
theorem Built.of_mem (hb : Built lib cs list) {object : Object τ} {inst : ObjectInstance τ} {resource : Resource τ}
    (ho : object ∈ list) (hi : inst ∈ object.instances) (hr : resource ∈ inst.resources) :
    ∃ d ∈ cs, object.name = decimalName d.objectId ∧ inst.instanceId = d.instanceId ∧ resource = d.resource := by
  have he : (⟨object.name, inst.instanceId, resource⟩ : Entry τ) ∈ cs.map AddCall.entry := by
    apply hb.resources.subset
    exact mem_entries.mpr ⟨object, ho, inst, hi, resource, hr, rfl⟩
  obtain ⟨d, hd, heq⟩ := List.mem_map.mp he
  obtain ⟨hname, hid, hres⟩ := Entry.mk.inj heq
  exact ⟨d, hd, hname.symm, hid.symm, hres.symm⟩

/-- So is an instance, as it has a resource. -/
theorem Built.of_mem_instances (hb : Built lib cs list) {object : Object τ} {inst : ObjectInstance τ}
    (ho : object ∈ list) (hi : inst ∈ object.instances) :
    ∃ d ∈ cs, object.name = decimalName d.objectId ∧ inst.instanceId = d.instanceId := by
  obtain ⟨resource, hr⟩ := List.exists_mem_of_ne_nil _ ((hb.nonempty object ho).2 inst hi)
  obtain ⟨d, hd, hname, hid, _⟩ := hb.of_mem ho hi hr
  exact ⟨d, hd, hname, hid⟩

/-- So is an object. -/
theorem Built.of_mem_objects (hb : Built lib cs list) {object : Object τ} (ho : object ∈ list) :
    ∃ d ∈ cs, object.name = decimalName d.objectId := by
  obtain ⟨inst, hi⟩ := List.exists_mem_of_ne_nil _ (hb.nonempty object ho).1
  obtain ⟨d, hd, hname, _⟩ := hb.of_mem_instances ho hi
  exact ⟨d, hd, hname⟩

/-- The object that the loop finds has the name that it would have been given. -/
theorem Built.name_eq (hb : Built lib cs list) {object : Object τ} {id : UInt16} (ho : object ∈ list)
    (hkey : lib.nameId object.name = (id.toNat : Int)) : object.name = decimalName id := by
  obtain ⟨d, _, hname⟩ := hb.of_mem_objects ho
  rw [hname] at hkey ⊢
  rw [(nameId_eq_iff lib).mp hkey]

/-- A call with new ids does not fail in an object of its id. -/
theorem Built.addToObject_isSome (hb : Built lib cs list) {c : AddCall τ} (hnew : ∀ d ∈ cs, d.triple ≠ c.triple)
    {object : Object τ} (ho : object ∈ list) (hname : object.name = decimalName c.objectId) :
    ∃ object', addToObject c object = some object' := by
  have hfind : ∃ instances, findOrCreate ObjectInstance.instanceId c.instanceId (createObjectInstance c.instanceId)
      (addToInstance c) object.instances = some instances := by
    apply findOrCreate_isSome
    · intro inst hi hid
      refine ⟨_, addToInstance_of_new ?_⟩
      intro r hr hrn
      obtain ⟨d, hd, hname', hid', rfl⟩ := hb.of_mem ho hi hr
      refine hnew d hd (triple_eq ?_ ?_ hrn)
      · exact hname'.symm.trans hname
      · exact hid'.symm.trans hid
    · exact ⟨_, addToInstance_of_new fun r hr => (nomatch hr)⟩
  obtain ⟨instances, hfind⟩ := hfind
  exact ⟨_, Option.map_eq_some_iff.mpr ⟨instances, hfind, rfl⟩⟩

/-- Nor does it in a new object. -/
theorem addToObject_createObject (c : AddCall τ) (name : List Char) :
    ∃ object', addToObject c (createObject name) = some object' := by
  have hadd : addToInstance c (createObjectInstance c.instanceId) = some ⟨c.instanceId, [c.resource]⟩ :=
    addToInstance_of_new fun r hr => (nomatch hr)
  refine ⟨⟨name, [⟨c.instanceId, [c.resource]⟩]⟩, ?_⟩
  rw [addToObject, createObject, findOrCreate, hadd]
  rfl

/-- Inside an object, ids of instances stay distinct and nothing is empty. -/
theorem addToObject_shape {c : AddCall τ} {object object' : Object τ} (h : addToObject c object = some object')
    (hids : (object.instances.map ObjectInstance.instanceId).Nodup)
    (hres : ∀ inst ∈ object.instances, inst.resources ≠ []) :
    (object'.instances.map ObjectInstance.instanceId).Nodup ∧ object'.instances ≠ [] ∧
      ∀ inst ∈ object'.instances, inst.resources ≠ [] := by
  obtain ⟨_, hfind⟩ := addToObject_eq_some h
  refine ⟨?_, findOrCreate_ne_nil hfind, ?_⟩
  · exact findOrCreate_nodup hfind hids rfl fun inst inst' hadd => (addToInstance_eq_some hadd).1
  · refine findOrCreate_forall hfind hres ?_
    intro inst inst' _ hadd
    rw [(addToInstance_eq_some hadd).2]
    simp

/-- **A call with new ids adds its own resource and nothing else.** -/
theorem addResource_built (hb : Built lib cs list) {c : AddCall τ} (hnew : ∀ d ∈ cs, d.triple ≠ c.triple) :
    ∃ list', addResource lib list c = some (list', c.resource) ∧ Built lib (cs ++ [c]) list' ∧
      (entries list').Perm (c.entry :: entries list) := by
  have hfind : ∃ list', findOrCreate (fun object => lib.nameId object.name) (c.objectId.toNat : Int)
      (createObject (nameOf c.objectId)) (addToObject c) list = some list' := by
    apply findOrCreate_isSome
    · intro object ho hkey
      exact hb.addToObject_isSome hnew ho (hb.name_eq ho hkey)
    · exact addToObject_createObject c (nameOf c.objectId)
  obtain ⟨list', hfind⟩ := hfind
  have hadd : (entries list').Perm (c.entry :: entries list) := by
    refine findOrCreate_parts hfind rfl ?_
    intro object object' hobject h
    refine addToObject_entries ?_ h
    rcases hobject with ⟨ho, hkey⟩ | rfl
    · exact hb.name_eq ho hkey
    · exact nameOf_eq c.objectId
  have hshape : ∀ object ∈ list', (object.instances.map ObjectInstance.instanceId).Nodup ∧ object.instances ≠ [] ∧
      ∀ inst ∈ object.instances, inst.resources ≠ [] := by
    refine findOrCreate_forall hfind (fun object ho => ⟨hb.instances object ho, hb.nonempty object ho⟩) ?_
    intro object object' hobject h
    rcases hobject with ho | rfl
    · exact addToObject_shape h (hb.instances object ho) (hb.nonempty object ho).2
    · exact addToObject_shape h List.nodup_nil fun inst hi => (nomatch hi)
  refine ⟨list', ?_, ⟨?_, ?_, fun object ho => (hshape object ho).1, fun object ho => (hshape object ho).2⟩, hadd⟩
  · rw [addResource, hfind, Option.map_some, setUp_eq]
  · rw [List.map_append, List.map_singleton]
    refine hadd.trans ((List.Perm.cons _ hb.resources).trans ?_)
    exact (List.perm_append_singleton _ _).symm
  · refine findOrCreate_nodup hfind hb.objects ?_ ?_
    · rw [createObject, nameOf_eq]
      exact (nameId_eq_iff lib).mpr rfl
    · intro object object' h
      rw [(addToObject_eq_some h).1]

/-! ## What the tree holds -/

/-- What a call has asked for is there. -/
theorem Built.exists_of_mem (hb : Built lib cs list) {d : AddCall τ} (hd : d ∈ cs) :
    ∃ object ∈ list, ∃ inst ∈ object.instances, object.name = decimalName d.objectId ∧
      inst.instanceId = d.instanceId := by
  have he : d.entry ∈ entries list := hb.resources.symm.subset (List.mem_map_of_mem hd)
  obtain ⟨object, ho, inst, hi, resource, _, heq⟩ := mem_entries.mp he
  obtain ⟨hname, hid, _⟩ := Entry.mk.inj heq
  exact ⟨object, ho, inst, hi, hname.symm, hid.symm⟩

theorem Built.names_nodup (hb : Built lib cs list) : (list.map Object.name).Nodup := by
  have hkeys := hb.objects
  rw [← Function.comp_def lib.nameId, ← List.map_map] at hkeys
  exact List.Nodup.of_map _ hkeys

/-- The objects are those of the calls. -/
theorem Built.objects_perm (hb : Built lib cs list) :
    (list.map Object.name).Perm ((cs.map AddCall.objectId).dedup.map decimalName) := by
  rw [List.perm_ext_iff_of_nodup hb.names_nodup ((List.nodup_dedup _).map decimalName_injective)]
  intro name
  simp only [List.mem_map, List.mem_dedup]
  constructor
  · rintro ⟨object, ho, rfl⟩
    obtain ⟨d, hd, hname⟩ := hb.of_mem_objects ho
    exact ⟨d.objectId, ⟨d, hd, rfl⟩, hname.symm⟩
  · rintro ⟨id, ⟨d, hd, rfl⟩, rfl⟩
    obtain ⟨object, ho, _, _, hname, _⟩ := hb.exists_of_mem hd
    exact ⟨object, ho, hname⟩

/-- No two instances of the tree have one path. -/
theorem Built.instancePaths_nodup (hb : Built lib cs list) : (instancePaths list).Nodup := by
  have hnames := hb.names_nodup
  rw [List.Nodup, List.pairwise_map] at hnames
  rw [instancePaths, List.nodup_flatMap]
  constructor
  · intro object ho
    have hids := hb.instances object ho
    rw [List.Nodup, List.pairwise_map] at hids ⊢
    exact hids.imp fun hne heq => hne (Prod.mk.inj heq).2
  · refine hnames.imp fun hne => ?_
    intro path hpath hpath'
    obtain ⟨inst, _, rfl⟩ := List.mem_map.mp hpath
    obtain ⟨inst', _, heq⟩ := List.mem_map.mp hpath'
    exact hne (Prod.mk.inj heq).1.symm

/-- The instances are those of the calls. -/
theorem Built.instances_perm (hb : Built lib cs list) : (instancePaths list).Perm
    ((cs.map fun c => (c.objectId, c.instanceId)).dedup.map fun p => (decimalName p.1, p.2)) := by
  have hinj : Function.Injective fun p : UInt16 × UInt16 => (decimalName p.1, p.2) := by
    intro p q h
    obtain ⟨hname, hid⟩ := Prod.mk.inj h
    exact Prod.ext (decimalName_injective hname) hid
  rw [List.perm_ext_iff_of_nodup hb.instancePaths_nodup ((List.nodup_dedup _).map hinj)]
  intro path
  simp only [instancePaths, List.mem_flatMap, List.mem_map, List.mem_dedup]
  constructor
  · rintro ⟨object, ho, inst, hi, rfl⟩
    obtain ⟨d, hd, hname, hid⟩ := hb.of_mem_instances ho hi
    exact ⟨_, ⟨d, hd, rfl⟩, by rw [hname, hid]⟩
  · rintro ⟨ids, ⟨d, hd, rfl⟩, rfl⟩
    obtain ⟨object, ho, inst, hi, hname, hid⟩ := hb.exists_of_mem hd
    exact ⟨object, ho, inst, hi, by rw [hname, hid]⟩

theorem Built.mirrors (hb : Built lib cs list) : Mirrors cs list := ⟨hb.objects_perm, hb.instances_perm, hb.resources⟩

end Built

/-! ## Runs of calls -/

/-- Calls with distinct ids all succeed. -/
theorem built_run (lib : ClientLibrary) (cs : List (AddCall τ)) (hcs : (cs.map AddCall.triple).Nodup) :
    ∃ list, run (addCloudResource lib) [] cs = some list ∧ Built lib cs list := by
  induction cs using List.reverseRecOn with
  | nil => exact ⟨[], rfl, built_nil lib⟩
  | append_singleton cs c ih =>
    rw [List.map_append, List.nodup_append] at hcs
    obtain ⟨list, hrun, hb⟩ := ih hcs.1
    have hnew : ∀ d ∈ cs, d.triple ≠ c.triple := by
      intro d hd
      exact hcs.2.2 d.triple (List.mem_map_of_mem hd) c.triple (by simp)
    obtain ⟨list', hadd, hb', _⟩ := addResource_built hb hnew
    refine ⟨list', run_snoc.mpr ⟨list, hrun, ?_⟩, hb'⟩
    rw [addCloudResource, hadd, Option.map_some]

/-- **Calls with distinct ids build the tree that they describe.** Each returns its own resource and leaves those in the
tree alone, and the order of the calls makes no difference to what is in the tree. -/
theorem resources_faithful (lib : ClientLibrary) (cs : List (AddCall τ)) (hcs : (cs.map AddCall.triple).Nodup) :
    ∃ list, run (addCloudResource lib) [] cs = some list ∧ Mirrors cs list ∧
      (∀ pre c post, cs = pre ++ c :: post → ∃ before after, run (addCloudResource lib) [] pre = some before ∧
        addResource lib before c = some (after, c.resource) ∧ (entries after).Perm (c.entry :: entries before)) ∧
      ∀ ds, ds.Perm cs → ∃ list', run (addCloudResource lib) [] ds = some list' ∧
        (entries list').Perm (entries list) := by
  obtain ⟨list, hrun, hb⟩ := built_run lib cs hcs
  refine ⟨list, hrun, hb.mirrors, ?_, ?_⟩
  · rintro pre c post rfl
    rw [List.map_append, List.nodup_append, List.map_cons] at hcs
    obtain ⟨before, hbefore, hb'⟩ := built_run lib pre hcs.1
    have hnew : ∀ d ∈ pre, d.triple ≠ c.triple := by
      intro d hd
      exact hcs.2.2 d.triple (List.mem_map_of_mem hd) c.triple List.mem_cons_self
    obtain ⟨after, hadd, _, hperm⟩ := addResource_built hb' hnew
    exact ⟨before, after, hbefore, hadd, hperm⟩
  · intro ds hds
    have hnodup : (ds.map AddCall.triple).Nodup := (hds.map _).nodup_iff.mpr hcs
    obtain ⟨list', hrun', hb'⟩ := built_run lib ds hnodup
    exact ⟨list', hrun', hb'.resources.trans ((hds.map _).trans hb.resources.symm)⟩

/-- Some of the calls of `main_application`, a data type being its name. -/
def mainCalls : List (AddCall String) :=
  [⟨5000, 0, 1, "unregister", "STRING", ⟨false, false, true, false⟩, none, false, 4096, 0⟩,
    ⟨3303, 0, 5700, "beacon_00_temperature", "FLOAT", ⟨true, true, false, false⟩, some "", true, 0, 0⟩,
    ⟨5000, 0, 2, "factory_reset", "STRING", ⟨false, false, true, false⟩, none, false, 8192, 0⟩]

theorem resources_faithful_mainCalls :
    ∃ list, run (addCloudResource ClientLibrary.ofDigits) [] mainCalls = some list ∧ Mirrors mainCalls list := by
  obtain ⟨list, hrun, hmirrors, _⟩ := resources_faithful ClientLibrary.ofDigits mainCalls (by decide)
  exact ⟨list, hrun, hmirrors⟩

end PelionClient.Client
