import Mathlib.Data.String.Basic
import KelvinClaw.Library.Collect
import KelvinClaw.Plugin.Manifest
import KelvinClaw.Sdk.Failover

/-!
# The registries of tools and model providers

A registry of plugins is projected to the tools of the plugins, and to their model providers. A
plugin that declares the capability must give one, and the others must not. Tools are kept under
their trimmed names; model providers under the id of the plugin, and under the trimmed names of
the provider and of the model, joined by two colons.
-/

namespace KelvinClaw.Plugin

open KelvinClaw.Core Systems

open KelvinClaw.Brain (Tool ToolRegistry)

open KelvinClaw.Sdk (ModelProvider)

variable {σ : Type}

/-! ### Plugins -/

/-- What the projections read of a manifest. -/
structure PluginManifest where
  id : String
  capabilities : List PluginCapability
  deriving DecidableEq, Repr

structure PluginFactory (σ : Type) where
  manifest : PluginManifest
  tool : Option Tool
  modelProvider : Option (ModelProvider σ)

/-- The plugins of a registry, in some order. -/
structure PluginRegistry (σ : Type) where
  plugins : List (PluginFactory σ)
  distinct : (plugins.map (·.manifest.id)).Nodup

namespace PluginRegistry

def get (registry : PluginRegistry σ) (pluginId : String) : Option (PluginFactory σ) :=
  registry.plugins.find? fun plugin => plugin.manifest.id = pluginId

def manifests (registry : PluginRegistry σ) : List PluginManifest :=
  registry.plugins.map (·.manifest)

def register (registry : PluginRegistry σ) (plugin : PluginFactory σ) (reasons : List String) :
    KelvinResult (PluginRegistry σ) :=
  let rejected := "; ".intercalate reasons
  if reasons ≠ [] then invalidInput s!"plugin '{plugin.manifest.id}' rejected: {rejected}"
  else if known : plugin.manifest.id ∈ registry.plugins.map (·.manifest.id) then
    invalidInput s!"plugin '{plugin.manifest.id}' is already registered"
  else .ok
    { plugins := registry.plugins ++ [plugin]
      distinct := by
        rw [List.map_append]
        exact registry.distinct.append (List.nodup_singleton _) (by simpa using known) }

def tools (registry : PluginRegistry σ) : List Tool := registry.plugins.filterMap (·.tool)

def models (registry : PluginRegistry σ) : List (ModelProvider σ) :=
  registry.plugins.filterMap (·.modelProvider)

end PluginRegistry

/-! ### Projections -/

def declared {α : Type} (capability : PluginCapability) (noun name : String)
    (manifest : PluginManifest) (given : Option α) : KelvinResult (Option α) :=
  match decide (capability ∈ manifest.capabilities), given with
  | false, none => .ok none
  | false, some _ =>
    invalidInput s!"plugin '{manifest.id}' exposes a {noun} but is missing '{name}' capability"
  | true, none =>
    invalidInput s!"plugin '{manifest.id}' declares {noun} capability but returned no {noun}"
  | true, some value => .ok (some value)

/-- What is kept of a plugin: nothing, or what it gives once that is checked. -/
def offerWith {α β : Type} (capability : PluginCapability) (noun name : String)
    (check : α → KelvinResult Unit) (pack : α → β) (manifest : PluginManifest)
    (given : Option α) : KelvinResult (Option β) := do
  match ← declared capability noun name manifest given with
  | none => return none
  | some value =>
    check value
    return some (pack value)

/-- The loop over the manifests, sorted by their ids. -/
def PluginRegistry.project {α : Type} (registry : PluginRegistry σ) (build : String)
    (offer : PluginManifest → PluginFactory σ → KelvinResult (Option (String × α)))
    (duplicate : String → KelvinError) : KelvinResult (List (String × α)) :=
  let offerOf := fun manifest =>
    match registry.get manifest.id with
    | none => .error (.notFound
        s!"plugin '{manifest.id}' disappeared during {build} registry build")
    | some plugin => offer manifest plugin
  collectFrom offerOf duplicate [] (sortByKey (·.id) registry.manifests)

/-- The tools by their trimmed names. -/
structure SdkToolRegistry where
  tools : List (String × Tool)

namespace SdkToolRegistry

def offer (manifest : PluginManifest) (plugin : PluginFactory σ) :
    KelvinResult (Option (String × Tool)) :=
  offerWith .toolProvider "tool" "tool_provider"
    (fun tool => refuseIf (trim tool.name = "")
      (.invalidInput s!"plugin '{manifest.id}' returned a tool with empty name"))
    (fun tool => (trim tool.name, tool)) manifest plugin.tool

def fromPluginRegistry (registry : PluginRegistry σ) : KelvinResult SdkToolRegistry := do
  let tools ← registry.project "tool" offer
    fun toolName => .invalidInput s!"duplicate tool name from plugins: {toolName}"
  return ⟨tools⟩

def get (registry : SdkToolRegistry) (name : String) : Option Tool := valueAt registry.tools name

def names (registry : SdkToolRegistry) : List String := sortByKey id (registry.tools.map Prod.fst)

/-- The registry as the agent uses it, with its definitions. -/
def toRegistry (registry : SdkToolRegistry) : ToolRegistry := ⟨registry.get, registry.names⟩

end SdkToolRegistry

def providerModelKey (providerName modelName : String) : String :=
  s!"{trim providerName}::{trim modelName}"

structure SdkModelProviderRegistry (σ : Type) where
  byPluginId : List (String × ModelProvider σ)
  byProviderModel : List (String × ModelProvider σ)

namespace SdkModelProviderRegistry

def offer (manifest : PluginManifest) (plugin : PluginFactory σ) :
    KelvinResult (Option (String × String × ModelProvider σ)) :=
  offerWith .modelProvider "model provider" "model_provider"
    (fun model => do
      refuseIf (trim model.providerName = "") (.invalidInput
        s!"plugin '{manifest.id}' returned a model provider with empty provider_name")
      refuseIf (trim model.modelName = "") (.invalidInput
        s!"plugin '{manifest.id}' returned a model provider with empty model_name"))
    (fun model => (providerModelKey model.providerName model.modelName, manifest.id, model))
    manifest plugin.modelProvider

def fromPluginRegistry (registry : PluginRegistry σ) :
    KelvinResult (SdkModelProviderRegistry σ) := do
  let models ← registry.project "model" offer
    fun key => .invalidInput s!"duplicate model provider name from plugins: {key}"
  return ⟨models.map fun entry => entry.2, models.map fun entry => (entry.1, entry.2.2)⟩

def getByPluginId (registry : SdkModelProviderRegistry σ) (pluginId : String) :
    Option (ModelProvider σ) :=
  valueAt registry.byPluginId pluginId

def getByProviderModel (registry : SdkModelProviderRegistry σ) (providerName modelName : String) :
    Option (ModelProvider σ) :=
  valueAt registry.byProviderModel (providerModelKey providerName modelName)

end SdkModelProviderRegistry

/-! ### The plugins in the order of their ids -/

namespace PluginRegistry

variable {registry other : PluginRegistry σ} {plugin : PluginFactory σ}

/-- The plugins in the order in which a projection meets them. -/
def sorted (registry : PluginRegistry σ) : List (PluginFactory σ) :=
  sortByKey (·.manifest.id) registry.plugins

theorem sorted_perm (registry : PluginRegistry σ) : registry.sorted.Perm registry.plugins :=
  sortByKey_perm _ _

theorem sorted_eq_of_perm (same : registry.plugins.Perm other.plugins) :
    registry.sorted = other.sorted :=
  sortByKey_eq_of_perm _ registry.distinct same

theorem map_manifest_sorted (registry : PluginRegistry σ) :
    registry.sorted.map (·.manifest) = sortByKey (·.id) registry.manifests :=
  List.map_mergeSort fun _ _ _ _ => rfl

theorem get_of_mem (member : plugin ∈ registry.plugins) :
    registry.get plugin.manifest.id = some plugin := by
  unfold get
  obtain ⟨found, first⟩ := Option.isSome_iff_exists.mp
    (List.find?_isSome (p := fun other => decide (other.manifest.id = plugin.manifest.id)) |>.mpr
      ⟨plugin, member, decide_eq_true rfl⟩)
  have same : found.manifest.id = plugin.manifest.id := by simpa using List.find?_some first
  rw [first, List.inj_on_of_nodup_map registry.distinct (List.mem_of_find?_eq_some first) member
    same]

variable {α : Type} {build : String}
  {offer : PluginManifest → PluginFactory σ → KelvinResult (Option (String × α))}
  {duplicate : String → KelvinError} {entries : List (String × α)}

theorem project_eq_collectFrom :
    registry.project build offer duplicate =
      collectFrom (fun plugin => offer plugin.manifest plugin) duplicate [] registry.sorted := by
  unfold project
  rw [← map_manifest_sorted, collectFrom_map]
  apply collectFrom_congr
  intro plugin member
  rw [get_of_mem ((sorted_perm registry).mem_iff.mp member)]

theorem project_eq_of_perm (same : registry.plugins.Perm other.plugins) :
    registry.project build offer duplicate = other.project build offer duplicate := by
  rw [project_eq_collectFrom, project_eq_collectFrom, sorted_eq_of_perm same]

variable {fine : PluginFactory σ → Prop} {give : PluginFactory σ → Option (String × α)}

theorem project_eq_ok (spec : ∀ plugin value,
      offer plugin.manifest plugin = .ok value ↔ fine plugin ∧ value = give plugin) :
    registry.project build offer duplicate = .ok entries ↔
      (∀ plugin ∈ registry.plugins, fine plugin) ∧ entries = registry.sorted.filterMap give ∧
        (entries.map Prod.fst).Nodup := by
  have empty : (([] : List (String × α)).map Prod.fst).Nodup := List.nodup_nil
  rw [project_eq_collectFrom, collectFrom_eq_ok empty, List.nil_append]
  have all_iff : (∀ plugin ∈ registry.sorted, ∃ value, offer plugin.manifest plugin = .ok value) ↔
      ∀ plugin ∈ registry.plugins, fine plugin := by
    refine forall_congr' fun plugin => imp_congr (sorted_perm registry).mem_iff ?_
    simp only [spec, exists_and_left, exists_eq, and_true]
  rw [all_iff]
  refine and_congr_right fun all => ?_
  have given : registry.sorted.filterMap (offered fun plugin => offer plugin.manifest plugin) =
      registry.sorted.filterMap give := by
    refine List.filterMap_congr fun plugin member => ?_
    have gives := (spec plugin (give plugin)).mpr
      ⟨all plugin ((sorted_perm registry).mem_iff.mp member), rfl⟩
    rw [offered, gives]
  rw [given]

theorem exists_project_iff (spec : ∀ plugin value,
      offer plugin.manifest plugin = .ok value ↔ fine plugin ∧ value = give plugin) :
    (∃ entries, registry.project build offer duplicate = .ok entries) ↔
      (∀ plugin ∈ registry.plugins, fine plugin) ∧
        ((registry.plugins.filterMap give).map Prod.fst).Nodup := by
  simp only [project_eq_ok spec]
  have perm := ((sorted_perm registry).filterMap give).map Prod.fst
  constructor
  · rintro ⟨_, all, rfl, nodup⟩
    exact ⟨all, perm.nodup_iff.mp nodup⟩
  · rintro ⟨all, nodup⟩
    exact ⟨_, all, rfl, perm.nodup_iff.mpr nodup⟩

end PluginRegistry

/-! ### What a plugin gives -/

/-- The plugins declare a capability exactly when they give what it promises. -/
def PluginRegistry.Agrees (registry : PluginRegistry σ) (capability : PluginCapability)
    (gives : PluginFactory σ → Bool) : Prop :=
  ∀ plugin ∈ registry.plugins, capability ∈ plugin.manifest.capabilities ↔ gives plugin

instance (registry : PluginRegistry σ) (capability : PluginCapability)
    (gives : PluginFactory σ → Bool) : Decidable (registry.Agrees capability gives) := by
  unfold PluginRegistry.Agrees
  infer_instance

theorem declared_eq_ok {α : Type} {capability : PluginCapability} {noun name : String}
    {manifest : PluginManifest} {given value : Option α} :
    declared capability noun name manifest given = .ok value ↔
      (capability ∈ manifest.capabilities ↔ given.isSome) ∧ value = given := by
  unfold declared
  by_cases listed : capability ∈ manifest.capabilities
  all_goals
    cases given
    all_goals simp [listed, invalidInput, eq_comm]

theorem offerWith_eq_ok {α β : Type} {capability : PluginCapability} {noun name : String}
    {check : α → KelvinResult Unit} {pack : α → β} {manifest : PluginManifest}
    {given : Option α} {value : Option β} :
    offerWith capability noun name check pack manifest given = .ok value ↔
      ((capability ∈ manifest.capabilities ↔ given.isSome) ∧ ∀ a ∈ given, check a = .ok ()) ∧
        value = given.map pack := by
  unfold offerWith
  rw [bind_eq_ok]
  constructor
  · rintro ⟨accepted, declares, ends⟩
    obtain ⟨agree, same⟩ := declared_eq_ok.mp declares
    rw [same] at ends
    cases given with
    | none => exact ⟨⟨agree, nofun⟩, (pure_eq_ok.mp ends).symm⟩
    | some a =>
      obtain ⟨checked, ends⟩ := bind_unit_eq_ok.mp ends
      exact ⟨⟨agree, by rintro _ ⟨⟩; exact checked⟩, (pure_eq_ok.mp ends).symm⟩
  · rintro ⟨⟨agree, checked⟩, rfl⟩
    refine ⟨given, declared_eq_ok.mpr ⟨agree, rfl⟩, ?_⟩
    cases given with
    | none => rfl
    | some a => exact bind_unit_eq_ok.mpr ⟨checked a rfl, rfl⟩

theorem forall_given_iff {α β : Type} {items : List β} {given : β → Option α} {fine : β → Prop}
    {valid : α → Prop} :
    (∀ item ∈ items, fine item ∧ ∀ a ∈ given item, valid a) ↔
      (∀ item ∈ items, fine item) ∧ ∀ a ∈ items.filterMap given, valid a := by
  simp only [forall_and, List.mem_filterMap, Option.mem_def]
  refine and_congr Iff.rfl ⟨?_, ?_⟩
  · rintro all a ⟨item, member, gives⟩
    exact all item member a gives
  · intro all item member a gives
    exact all a ⟨item, member, gives⟩

theorem exists_bind_pure_iff {α β : Type} {first : KelvinResult α} {pack : α → β} :
    (∃ result, (first >>= fun a => pure (pack a)) = .ok result) ↔ ∃ a, first = .ok a := by
  simp only [bind_eq_ok, pure_eq_ok]
  constructor
  · rintro ⟨_, a, ends, -⟩
    exact ⟨a, ends⟩
  · rintro ⟨a, ends⟩
    exact ⟨_, a, ends, rfl⟩

/-! ### The projection to the tools -/

def definition (tool : Tool) : ToolDefinition := ⟨tool.name, tool.description, tool.inputSchema⟩

namespace SdkToolRegistry

variable {registry : PluginRegistry σ} {projected : SdkToolRegistry}

def give (plugin : PluginFactory σ) : Option (String × Tool) :=
  plugin.tool.map fun tool => (trim tool.name, tool)

theorem offer_eq_ok (plugin : PluginFactory σ) (value : Option (String × Tool)) :
    offer plugin.manifest plugin = .ok value ↔
      ((.toolProvider ∈ plugin.manifest.capabilities ↔ plugin.tool.isSome) ∧
        ∀ tool ∈ plugin.tool, trim tool.name ≠ "") ∧ value = give plugin := by
  rw [offer, offerWith_eq_ok]
  simp only [refuseIf_eq_ok, give]

theorem filterMap_give (plugins : List (PluginFactory σ)) :
    plugins.filterMap give =
      (plugins.filterMap (·.tool)).map fun tool => (trim tool.name, tool) :=
  List.map_filterMap.symm

/-- The projection succeeds exactly when declarations and tools agree and the trimmed names are
not empty and differ. -/
theorem exists_fromPluginRegistry_iff (registry : PluginRegistry σ) :
    (∃ projected, fromPluginRegistry registry = .ok projected) ↔
      registry.Agrees .toolProvider (·.tool.isSome) ∧
        (∀ tool ∈ registry.tools, trim tool.name ≠ "") ∧
        (registry.tools.map fun tool => trim tool.name).Nodup := by
  rw [fromPluginRegistry, exists_bind_pure_iff, PluginRegistry.exists_project_iff offer_eq_ok,
    forall_given_iff, filterMap_give, List.map_map, and_assoc]
  rfl

theorem of_fromPluginRegistry (made : fromPluginRegistry registry = .ok projected) :
    projected.tools.Perm (registry.tools.map fun tool => (trim tool.name, tool)) ∧
      (projected.tools.map Prod.fst).Nodup := by
  obtain ⟨tools, ends, packed⟩ := bind_eq_ok.mp made
  obtain rfl := pure_eq_ok.mp packed
  obtain ⟨-, rfl, nodup⟩ := (PluginRegistry.project_eq_ok offer_eq_ok).mp ends
  refine ⟨?_, nodup⟩
  rw [PluginRegistry.tools, ← filterMap_give]
  exact (PluginRegistry.sorted_perm registry).filterMap give

theorem get_trim (made : fromPluginRegistry registry = .ok projected) {tool : Tool}
    (given : tool ∈ registry.tools) : projected.get (trim tool.name) = some tool := by
  obtain ⟨perm, nodup⟩ := of_fromPluginRegistry made
  refine (valueAt_eq_some nodup).mpr ?_
  exact perm.mem_iff.mpr (List.mem_map.mpr ⟨tool, given, rfl⟩)

theorem definitions_perm (made : fromPluginRegistry registry = .ok projected) :
    projected.toRegistry.definitions.Perm (registry.tools.map definition) := by
  obtain ⟨perm, nodup⟩ := of_fromPluginRegistry made
  have listed : projected.names.Perm (projected.tools.map Prod.fst) := sortByKey_perm id _
  have defined : (projected.tools.map Prod.fst).filterMap
      (fun name => (projected.get name).map definition) =
        projected.tools.map fun entry => definition entry.2 := by
    rw [List.filterMap_map, ← List.filterMap_eq_map]
    refine List.filterMap_congr fun entry member => ?_
    rw [Function.comp_apply, get, (valueAt_eq_some nodup).mpr member]
    rfl
  have shown : projected.toRegistry.definitions.Perm
      (projected.tools.map fun entry => definition entry.2) :=
    defined ▸ listed.filterMap _
  refine shown.trans ((perm.map _).trans ?_)
  rw [List.map_map]
  exact .refl _

end SdkToolRegistry

/-! ### The projection to the model providers -/

namespace SdkModelProviderRegistry

variable {registry : PluginRegistry σ} {projected : SdkModelProviderRegistry σ}

def keyOf (model : ModelProvider σ) : String := providerModelKey model.providerName model.modelName

def give (plugin : PluginFactory σ) : Option (String × String × ModelProvider σ) :=
  plugin.modelProvider.map fun model => (keyOf model, plugin.manifest.id, model)

theorem offer_eq_ok (plugin : PluginFactory σ)
    (value : Option (String × String × ModelProvider σ)) :
    offer plugin.manifest plugin = .ok value ↔
      ((.modelProvider ∈ plugin.manifest.capabilities ↔ plugin.modelProvider.isSome) ∧
        ∀ model ∈ plugin.modelProvider,
          trim model.providerName ≠ "" ∧ trim model.modelName ≠ "") ∧
      value = give plugin := by
  rw [offer, offerWith_eq_ok]
  simp only [bind_unit_eq_ok, refuseIf_eq_ok, give, keyOf, ne_eq]

theorem keys_filterMap_give (plugins : List (PluginFactory σ)) :
    (plugins.filterMap give).map Prod.fst = (plugins.filterMap (·.modelProvider)).map keyOf := by
  rw [List.map_filterMap, List.map_filterMap]
  refine List.filterMap_congr fun plugin _ => ?_
  rw [give, Option.map_map]
  rfl

/-- The projection succeeds exactly when declarations and model providers agree, the trimmed
names are not empty, and the keys differ. -/
theorem exists_fromPluginRegistry_iff (registry : PluginRegistry σ) :
    (∃ projected, fromPluginRegistry registry = .ok projected) ↔
      registry.Agrees .modelProvider (·.modelProvider.isSome) ∧
        (∀ model ∈ registry.models, trim model.providerName ≠ "" ∧ trim model.modelName ≠ "") ∧
        (registry.models.map keyOf).Nodup := by
  rw [fromPluginRegistry, exists_bind_pure_iff, PluginRegistry.exists_project_iff offer_eq_ok,
    forall_given_iff, keys_filterMap_give, and_assoc]
  rfl

theorem get_of_mem (made : fromPluginRegistry registry = .ok projected)
    {plugin : PluginFactory σ} (member : plugin ∈ registry.plugins) {model : ModelProvider σ}
    (given : model ∈ plugin.modelProvider) :
    projected.getByPluginId plugin.manifest.id = some model ∧
      projected.getByProviderModel model.providerName model.modelName = some model := by
  obtain ⟨models, ends, packed⟩ := bind_eq_ok.mp made
  obtain rfl := pure_eq_ok.mp packed
  obtain ⟨-, rfl, nodup⟩ := (PluginRegistry.project_eq_ok offer_eq_ok).mp ends
  have kept : (keyOf model, plugin.manifest.id, model) ∈ registry.sorted.filterMap give := by
    refine List.mem_filterMap.mpr
      ⟨plugin, (PluginRegistry.sorted_perm registry).mem_iff.mpr member, ?_⟩
    rw [give, Option.mem_def.mp given]
    rfl
  constructor
  · -- the ids of the plugins differ, so those of the plugins that give a model provider do
    have ids : ((registry.sorted.filterMap give).map fun entry => entry.2.1).Nodup := by
      have distinct := ((PluginRegistry.sorted_perm registry).map (·.manifest.id)).nodup_iff.mpr
        registry.distinct
      rw [List.Nodup, List.pairwise_map, List.pairwise_filterMap]
      refine (List.pairwise_map.mp distinct).imp ?_
      intro plugin other apart entry gives entry' gives'
      obtain ⟨_, -, rfl⟩ := Option.map_eq_some_iff.mp gives
      obtain ⟨_, -, rfl⟩ := Option.map_eq_some_iff.mp gives'
      exact apart
    refine (valueAt_eq_some ?_).mpr (List.mem_map.mpr ⟨_, kept, rfl⟩)
    rwa [List.map_map]
  · refine (valueAt_eq_some ?_).mpr (List.mem_map.mpr ⟨_, kept, rfl⟩)
    rwa [List.map_map]

end SdkModelProviderRegistry

/-! ### Completeness -/

theorem fromPluginRegistry_eq_of_perm {registry other : PluginRegistry σ}
    (same : other.plugins.Perm registry.plugins) :
    SdkToolRegistry.fromPluginRegistry other = SdkToolRegistry.fromPluginRegistry registry ∧
      SdkModelProviderRegistry.fromPluginRegistry other =
        SdkModelProviderRegistry.fromPluginRegistry registry := by
  constructor
  · rw [SdkToolRegistry.fromPluginRegistry, PluginRegistry.project_eq_of_perm same]
    rfl
  · rw [SdkModelProviderRegistry.fromPluginRegistry, PluginRegistry.project_eq_of_perm same]
    rfl

/-- A projection succeeds exactly when all plugins give what they declare, their names are not
blank, and the keys differ; the order of the plugins does not matter; and everything that is given
is kept and found, a tool under its trimmed name. -/
theorem projected_registries (registry : PluginRegistry σ) :
    ((∃ projected, SdkToolRegistry.fromPluginRegistry registry = .ok projected) ↔
      registry.Agrees .toolProvider (·.tool.isSome) ∧
        (∀ tool ∈ registry.tools, trim tool.name ≠ "") ∧
        (registry.tools.map fun tool => trim tool.name).Nodup) ∧
    ((∃ projected, SdkModelProviderRegistry.fromPluginRegistry registry = .ok projected) ↔
      registry.Agrees .modelProvider (·.modelProvider.isSome) ∧
        (∀ model ∈ registry.models, trim model.providerName ≠ "" ∧ trim model.modelName ≠ "") ∧
        (registry.models.map fun model =>
          providerModelKey model.providerName model.modelName).Nodup) ∧
    (∀ other : PluginRegistry σ, other.plugins.Perm registry.plugins →
      SdkToolRegistry.fromPluginRegistry other = SdkToolRegistry.fromPluginRegistry registry ∧
        SdkModelProviderRegistry.fromPluginRegistry other =
          SdkModelProviderRegistry.fromPluginRegistry registry) ∧
    (∀ projected, SdkToolRegistry.fromPluginRegistry registry = .ok projected →
      projected.toRegistry.definitions.Perm (registry.tools.map definition) ∧
        ∀ tool ∈ registry.tools, projected.get (trim tool.name) = some tool) ∧
    ∀ projected, SdkModelProviderRegistry.fromPluginRegistry registry = .ok projected →
      ∀ plugin ∈ registry.plugins, ∀ model ∈ plugin.modelProvider,
        projected.getByPluginId plugin.manifest.id = some model ∧
          projected.getByProviderModel model.providerName model.modelName = some model := by
  refine ⟨SdkToolRegistry.exists_fromPluginRegistry_iff registry,
    SdkModelProviderRegistry.exists_fromPluginRegistry_iff registry,
    fun other => fromPluginRegistry_eq_of_perm, fun projected made => ⟨?_, fun tool given => ?_⟩,
    fun projected made plugin member model given => ?_⟩
  · exact SdkToolRegistry.definitions_perm made
  · exact SdkToolRegistry.get_trim made given
  · exact SdkModelProviderRegistry.get_of_mem made member given

def providerPlugin (id providerName modelName : String) : PluginFactory Unit where
  manifest := ⟨id, [.modelProvider]⟩
  tool := none
  modelProvider := some ⟨providerName, modelName, fun _ _ => (.error (.backend "offline"), ())⟩

def colliding : PluginRegistry Unit where
  plugins := [providerPlugin "first" "a::b" "c", providerPlugin "second" "a" "b::c"]
  distinct := by decide

/-- A plugin whose tool has a blank in front of its name. -/
def padded : PluginRegistry Unit where
  plugins :=
    [⟨⟨"echo", [.toolProvider]⟩,
      some ⟨" echo", "Echo", .null, fun _ _ => .error (.backend "offline")⟩, none⟩]
  distinct := by decide

/-- Providers of different names are refused when their keys collide, and a tool is listed under a
name that it is not found under. -/
theorem colliding_names_are_refused :
    (colliding.Agrees .modelProvider (·.modelProvider.isSome) ∧
      (colliding.models.map fun model => (model.providerName, model.modelName)).Nodup ∧
      ¬ ∃ projected, SdkModelProviderRegistry.fromPluginRegistry colliding = .ok projected) ∧
    ∃ projected, SdkToolRegistry.fromPluginRegistry padded = .ok projected ∧
      (∃ listed ∈ projected.toRegistry.definitions, listed.name = " echo") ∧
      projected.get " echo" = none := by
  refine ⟨⟨by decide, by decide, ?_⟩, ?_⟩
  · rw [SdkModelProviderRegistry.exists_fromPluginRegistry_iff]
    rintro ⟨-, -, keys⟩
    revert keys
    decide
  · obtain ⟨projected, made⟩ := (SdkToolRegistry.exists_fromPluginRegistry_iff padded).mpr
      ⟨by decide, by decide, by decide⟩
    refine ⟨projected, made, ?_, ?_⟩
    · exact ⟨_, (SdkToolRegistry.definitions_perm made).mem_iff.mpr List.mem_cons_self, rfl⟩
    · obtain ⟨perm, nodup⟩ := SdkToolRegistry.of_fromPluginRegistry made
      refine Option.eq_none_iff_forall_ne_some.mpr fun tool found => ?_
      have member := perm.mem_iff.mp ((valueAt_eq_some nodup).mp found)
      obtain ⟨other, given, same⟩ := List.mem_map.mp member
      obtain rfl := List.mem_singleton.mp given
      have trimmed : trim " echo" = " echo" := congrArg Prod.fst same
      exact absurd trimmed (by decide)

end KelvinClaw.Plugin
