import Idk.Install.State

/-!
# What a valid installation state is

`Valid` is `validate` as a proposition; committing a reviewed generation of a valid
state gives a valid state, so that no activation can get stuck on its own commit.
-/

namespace Idk.Verified.Install

open Idk.Install

/-! ## Versions -/

theorem le_refl (version : Version) : version.le version = true := by
  simp [Version.le]

theorem validVersion_ok {version : String} {done : Unit} (valid : validVersion version = .ok done) :
    ∃ parsed, versionTuple version = .ok parsed := by
  rw [validVersion, bind_eq_ok] at valid
  obtain ⟨parsed, same, _⟩ := valid
  exact ⟨parsed, same⟩

theorem generation_version {generation : Generation} {done : Unit}
    (valid : generation.validate = .ok done) :
    ∃ parsed, versionTuple generation.version = .ok parsed := by
  rw [Generation.validate, bind_eq_ok] at valid
  obtain ⟨_, version, _⟩ := valid
  exact validVersion_ok version

/-! ## Loops of checks -/

theorem forM_ok {α : Type} {check : α → Result Unit} {items : List α} :
    items.forM check = .ok () ↔ ∀ item ∈ items, check item = .ok () := by
  induction items with
  | nil => simp [pure, Except.pure]
  | cons head tail inductionHypothesis =>
    show (check head >>= fun _ => tail.forM check) = .ok () ↔ _
    simp only [bind_eq_ok, inductionHypothesis, List.mem_cons, forall_eq_or_imp]
    constructor
    · intro ⟨_, first, rest⟩
      exact ⟨first, rest⟩
    · intro ⟨first, rest⟩
      exact ⟨(), first, rest⟩

theorem option_forM_ok {α : Type} {check : α → Result Unit} {value : Option α} :
    value.forM check = .ok () ↔ ∀ item, value = some item → check item = .ok () := by
  cases value <;> simp [pure, Except.pure]

/-! ## The inventory -/

theorem get_member {inventory : Inventory} {name : String} {generation : Generation}
    (found : inventory.get? name = some generation) : (name, generation) ∈ inventory := by
  simp only [Inventory.get?, Option.map_eq_some_iff] at found
  obtain ⟨entry, first, rfl⟩ := found
  have same : entry.1 = name := by simpa using List.find?_some first
  exact same ▸ List.mem_of_find?_eq_some first

theorem get_insert (inventory : Inventory) (name : String) (generation : Generation)
    (other : String) (new : inventory.get? name = none) :
    (inventory.insert name generation).get? other =
      if other = name then some generation else inventory.get? other := by
  induction inventory with
  | nil =>
    by_cases same : name = other
    · simp [Inventory.insert, Inventory.get?, same]
    · simp [Inventory.insert, Inventory.get?, same, Ne.symm same]
  | cons head tail inductionHypothesis =>
    obtain ⟨key, value⟩ := head
    have different : key ≠ name := fun same => by simp [Inventory.get?, same] at new
    have rest : Inventory.get? tail name = none := by
      simpa [Inventory.get?, different] using new
    simp only [Inventory.insert]
    split
    · by_cases mine : key = other
      · subst mine
        simp [Inventory.get?, different]
      · have later := inductionHypothesis rest
        simp only [Inventory.get?] at later ⊢
        simpa [mine] using later
    · by_cases same : name = other
      · simp [Inventory.get?, same]
      · simp [Inventory.get?, same, Ne.symm same]

/-! ## Valid states -/

/-- A state that `validate` accepts. -/
structure Valid (state : InstallationState) : Prop where
  schema : state.schema = 2
  bounded : state.generations.length ≤ maxGenerations
  entries : ∀ entry ∈ state.generations, entry.2.validate = .ok () ∧ entry.1 = entry.2.name
  known : ∀ name, state.active = some name → ∃ generation,
    state.generations.get? name = some generation
  floor : ∀ floor, state.committedVersionFloor = some floor →
    (∃ version, versionTuple floor = .ok version) ∧
      ∃ entry ∈ state.generations, entry.2.version = floor
  below : ∀ name, state.active = some name → ∃ floor version limit,
    state.committedVersionFloor = some floor ∧ state.versionOf name = .ok version ∧
      versionTuple floor = .ok limit ∧ version.le limit = true

theorem validate_iff {state : InstallationState} : state.validate = .ok () ↔ Valid state := by
  constructor
  · intro accepted
    rw [InstallationState.validate, bind_eq_ok] at accepted
    obtain ⟨_, sized, accepted⟩ := accepted
    obtain ⟨_, entries, accepted⟩ := bind_eq_ok.mp accepted
    obtain ⟨_, known, accepted⟩ := bind_eq_ok.mp accepted
    obtain ⟨_, floor, below⟩ := bind_eq_ok.mp accepted
    simp only [ensure_eq_ok, Bool.and_eq_true, beq_iff_eq, decide_eq_true_eq] at sized
    simp only [ensure_eq_ok, Option.all_eq_true_iff_get] at known
    refine ⟨sized.1, sized.2, fun entry member => ?_, fun name active => ?_, fun limit same => ?_,
      fun name active => ?_⟩
    · obtain ⟨_, valid, same⟩ := bind_eq_ok.mp (forM_ok.mp entries entry member)
      exact ⟨valid, by simpa using same⟩
    · have found := known (by simp [active])
      simpa [active, Option.isSome_iff_exists] using found
    · obtain ⟨_, valid, found⟩ := bind_eq_ok.mp (option_forM_ok.mp floor limit same)
      refine ⟨validVersion_ok valid, ?_⟩
      simpa using found
    · obtain ⟨limit, same, rest⟩ := bind_eq_ok.mp (option_forM_ok.mp below name active)
      obtain ⟨version, own, rest⟩ := bind_eq_ok.mp rest
      obtain ⟨bound, parsed, rest⟩ := bind_eq_ok.mp rest
      exact ⟨limit, version, bound, by simpa using same, own, parsed, by simpa using rest⟩
  · intro valid
    rw [InstallationState.validate, bind_eq_ok]
    refine ⟨(), by simp [valid.schema, valid.bounded], bind_eq_ok.mpr ⟨(), ?_, ?_⟩⟩
    · refine forM_ok.mpr fun entry member => ?_
      obtain ⟨accepted, same⟩ := valid.entries entry member
      exact bind_eq_ok.mpr ⟨(), accepted, by simp [same]⟩
    · refine bind_eq_ok.mpr ⟨(), ?_, bind_eq_ok.mpr ⟨(), ?_, ?_⟩⟩
      · cases active : state.active with
        | none => simp
        | some name =>
          obtain ⟨generation, found⟩ := valid.known name active
          simp [found]
      · refine option_forM_ok.mpr fun floor same => ?_
        obtain ⟨⟨version, parsed⟩, entry, member, equal⟩ := valid.floor floor same
        refine bind_eq_ok.mpr ⟨(), bind_eq_ok.mpr ⟨version, parsed, rfl⟩, ?_⟩
        simp only [ensure_eq_ok, List.any_eq_true]
        exact ⟨entry, member, by simp [equal]⟩
      · refine option_forM_ok.mpr fun name active => ?_
        obtain ⟨floor, version, limit, same, own, parsed, bound⟩ := valid.below name active
        refine bind_eq_ok.mpr ⟨floor, by simp [same], bind_eq_ok.mpr ⟨version, own, ?_⟩⟩
        exact bind_eq_ok.mpr ⟨limit, parsed, by simp [bound]⟩

theorem Valid.default : Valid .default where
  schema := rfl
  bounded := Nat.zero_le _
  entries := by simp [InstallationState.default]
  known := by simp [InstallationState.default]
  floor := by simp [InstallationState.default]
  below := by simp [InstallationState.default]

/-! ## Committing -/

/-- The generation is in the inventory of a valid state. -/
theorem Valid.versionOf_ok {state : InstallationState} (valid : Valid state)
    {generation : Generation} (member : state.generations.get? generation.name = some generation) :
    ∃ version, versionTuple generation.version = .ok version ∧
      state.versionOf generation.name = .ok version := by
  obtain ⟨accepted, _⟩ := valid.entries _ (get_member member)
  obtain ⟨version, parsed⟩ := generation_version accepted
  refine ⟨version, parsed, ?_⟩
  rw [InstallationState.versionOf, member]
  exact parsed

/-- `committed` of a valid state and a generation of its inventory does not fail. -/
theorem committed_ok {before : InstallationState} {target : Option Generation}
    (valid : Valid before)
    (known : ∀ generation, target = some generation →
      before.generations.get? generation.name = some generation) :
    ∃ after, before.committed target = .ok after ∧ Valid after ∧
      after.active = target.map (·.name) ∧ after.generations = before.generations := by
  -- It is enough that the state which `committed` checks is valid.
  have accepted : ∀ after : InstallationState, Valid after →
      (do after.validate; pure after : Result InstallationState) = .ok after := by
    intro after holds
    exact bind_eq_ok.mpr ⟨(), validate_iff.mpr holds, rfl⟩
  cases target with
  | none =>
    refine ⟨{ before with active := none }, accepted _ ?_, ?_, rfl, rfl⟩ <;>
      exact ⟨valid.schema, valid.bounded, valid.entries, by simp, valid.floor, by simp⟩
  | some generation =>
    have member := known generation rfl
    obtain ⟨version, parsed, own⟩ := valid.versionOf_ok member
    -- The target's version as the new floor.
    have raised : Valid { before with
        active := some generation.name, committedVersionFloor := some generation.version } := by
      refine ⟨valid.schema, valid.bounded, valid.entries, ?_, ?_, ?_⟩
      · intro name same
        exact ⟨generation, (Option.some.inj same) ▸ member⟩
      · intro floor same
        obtain rfl := Option.some.inj same
        exact ⟨⟨version, parsed⟩, _, get_member member, rfl⟩
      · intro name same
        obtain rfl := Option.some.inj same
        exact ⟨generation.version, version, version, rfl, own, parsed, le_refl version⟩
    cases floored : before.committedVersionFloor with
    | none =>
      refine ⟨_, ?_, raised, rfl, rfl⟩
      simp only [InstallationState.committed, InstallationState.raisesFloor, floored]
      exact accepted _ raised
    | some floor =>
      obtain ⟨⟨limit, bound⟩, entry, inside, equal⟩ := valid.floor floor floored
      by_cases low : version.le limit
      · -- The floor stays.
        have kept : Valid { before with active := some generation.name } := by
          refine ⟨valid.schema, valid.bounded, valid.entries, ?_, valid.floor, ?_⟩
          · intro name same
            exact ⟨generation, (Option.some.inj same) ▸ member⟩
          · intro name same
            obtain rfl := Option.some.inj same
            exact ⟨floor, version, limit, floored, own, bound, low⟩
        refine ⟨_, ?_, kept, rfl, rfl⟩
        have stays : before.raisesFloor generation = .ok false := by
          simp [InstallationState.raisesFloor, floored, parsed, bound, low, bind, Except.bind, pure,
            Except.pure]
        simp only [InstallationState.committed, stays]
        exact accepted _ kept
      · refine ⟨_, ?_, raised, rfl, rfl⟩
        have raises : before.raisesFloor generation = .ok true := by
          simp [InstallationState.raisesFloor, floored, parsed, bound, low, bind, Except.bind, pure,
            Except.pure]
        simp only [InstallationState.committed, raises]
        exact accepted _ raised

end Idk.Verified.Install
