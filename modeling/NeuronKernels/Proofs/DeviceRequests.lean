import NeuronKernels.NetworkFiles
import NeuronKernels.SettingsProblems
import Mathlib.Logic.Basic

/-!
# Settings and the device they ask for

The name of a device is read twice: once when settings are checked and once when the device is made.
A name that is reported as a problem is refused, but two names that the check lets pass are refused
all the same, those of a graphics device (`made_iff`). All other settings without a problem give a
device and a network, whatever the switches say (`device_of_settings`).
-/

namespace NeuronKernels.DeviceRequests
open BinaryFloat DeviceSelection KernelNetwork MemoryArena NetworkErrors NetworkFiles NeuronGraph
open SettingsProblems TextPieces ToolSettings

/-- The settings that a problem is about. -/
def keysOf : Problem → List Key
  | .missing key | .notListed key _ _ | .notIdentifier key _ => [key]
  | .conflict first second => [first, second]

/-- Whether some problem is about the name of the device. -/
def Reported (s : Settings) : Prop := ∃ q ∈ problems s, Key.deviceKind ∈ keysOf q

def AsksGraphics (name : String) : Prop := smallLetters name ∈ ["wgpu", "gpu"]

instance (s : Settings) : Decidable (Reported s) :=
  inferInstanceAs (Decidable (∃ q ∈ problems s, Key.deviceKind ∈ keysOf q))

instance (name : String) : Decidable (AsksGraphics name) :=
  inferInstanceAs (Decidable (smallLetters name ∈ ["wgpu", "gpu"]))

theorem mem_checkListed_iff {key : Key} {value : String} {names : List String} {q : Problem} :
    q ∈ checkListed key value names ↔
      smallLetters value ∉ names ∧ q = .notListed key value names := by
  unfold checkListed
  by_cases h : smallLetters value ∈ names <;> simp [h]

theorem keysOf_standaloneProblems {s : StandaloneSettings} {q : Problem}
    (mem : q ∈ standaloneProblems s) : keysOf q = [.standaloneName] := by
  unfold standaloneProblems at mem
  split at mem
  · rw [List.mem_singleton.mp mem, keysOf]
  split at mem
  · cases mem
  · rw [List.mem_singleton.mp mem, keysOf]

theorem section_loggingProblems {s : LoggingSettings} {q : Problem} {key : Key}
    (mem : q ∈ loggingProblems s) (about : key ∈ keysOf q) : key.sectionOf = .logging := by
  rcases List.mem_append.mp mem with listed | folder
  · obtain ⟨_, rfl⟩ := mem_checkListed_iff.mp listed
    rw [List.mem_singleton.mp about, Key.sectionOf]
  · split at folder
    · obtain rfl := List.mem_singleton.mp folder
      rw [List.mem_singleton.mp about, Key.sectionOf]
    · cases folder

theorem reported_iff (s : Settings) :
    Reported s ↔ smallLetters s.device.kind ∉ deviceNames := by
  constructor
  · rintro ⟨q, mem, about⟩
    rcases List.mem_append.mp mem with mem | mem
    · rcases List.mem_append.mp mem with mem | mem
      · rcases List.mem_append.mp mem with listed | clash
        · exact (mem_checkListed_iff.mp listed).1
        · split at clash
          · obtain rfl := List.mem_singleton.mp clash
            simp [keysOf] at about
          · cases clash
      · simp [keysOf_standaloneProblems mem] at about
    · cases section_loggingProblems mem about
  · intro unlisted
    refine ⟨.notListed .deviceKind s.device.kind deviceNames, ?_, List.mem_singleton_self _⟩
    have listed : Problem.notListed .deviceKind s.device.kind deviceNames ∈
        checkListed .deviceKind s.device.kind deviceNames :=
      mem_checkListed_iff.mpr ⟨unlisted, rfl⟩
    simp only [problems, deviceProblems, List.mem_append]
    exact .inl (.inl (.inl listed))

theorem validate_ok_iff (s : Settings) : validate s = .ok () ↔ problems s = [] := by
  unfold validate
  by_cases h : problems s = [] <;> simp [h]

theorem not_reported_of_validate {s : Settings} (sound : validate s = .ok ()) : ¬Reported s := by
  rintro ⟨q, mem, _⟩
  rw [(validate_ok_iff s).mp sound] at mem
  cases mem

theorem ofName_ok_iff {name : String} :
    (∃ kind, DeviceKind.ofName name = .ok kind) ↔
      smallLetters name ∈ ["auto", "portable", "cpu"] := by
  unfold DeviceKind.ofName
  by_cases portable : smallLetters name = "portable" ∨ smallLetters name = "cpu"
  · rcases portable with h | h <;> simp [h]
  · by_cases auto : smallLetters name = "auto"
    · simp [auto]
    · simp_all

theorem ofName_error {name : String} {e : NetworkError} (h : DeviceKind.ofName name = .error e) :
    e = .invalidBackend name := by
  simp only [DeviceKind.ofName] at h
  split at h
  · cases h
  split at h
  · cases h
  · cases h
    rfl

/-- A device is made or its name is refused, and the name alone decides. -/
theorem deviceOf_fst (s : DeviceSettings) :
    (deviceOf s).1 = if smallLetters s.kind ∈ ["auto", "portable", "cpu"] then .ok .portable
      else .error (.invalidBackend s.kind) := by
  cases h : DeviceKind.ofName s.kind with
  | ok kind =>
    rw [if_pos (ofName_ok_iff.mp ⟨kind, h⟩)]
    simp [deviceOf, wantedDevice, h, Except.map]
  | error e =>
    have refused : smallLetters s.kind ∉ ["auto", "portable", "cpu"] := by
      intro mem
      obtain ⟨kind, ok⟩ := ofName_ok_iff.mpr mem
      rw [ok] at h
      cases h
    rw [if_neg refused, ← ofName_error h]
    simp [deviceOf, wantedDevice, h, Except.map]

theorem mem_deviceNames_iff {name : String} :
    smallLetters name ∈ deviceNames ↔
      smallLetters name ∈ ["auto", "portable", "cpu"] ∨ AsksGraphics name := by
  simp [deviceNames, AsksGraphics, or_assoc]

theorem not_asksGraphics_of_made {name : String}
    (made : smallLetters name ∈ ["auto", "portable", "cpu"]) : ¬AsksGraphics name := by
  intro asks
  simp only [AsksGraphics, List.mem_cons, List.not_mem_nil, or_false] at made asks
  rcases made with h | h | h <;> simp [h] at asks

theorem made_iff (s : Settings) :
    smallLetters s.device.kind ∈ ["auto", "portable", "cpu"] ↔
      ¬Reported s ∧ ¬AsksGraphics s.device.kind := by
  rw [reported_iff, not_not, mem_deviceNames_iff]
  constructor
  · intro made
    exact ⟨.inl made, not_asksGraphics_of_made made⟩
  · rintro ⟨made | asks, plain⟩
    · exact made
    · exact absurd asks plain

theorem networkOf_fst {p : Precision} {δ : Type} {s : Settings}
    (made : (deviceOf s.device).1 = .ok .portable) (a : Arena p) (g : Graph) :
    (networkOf (δ := δ) s a g).1 =
      .ok ((Network.ofGraph a g s.assembly.maxExpressions).withDevice .portable) := by
  rcases h : deviceOf s.device with ⟨result, events⟩
  obtain rfl : result = .ok .portable := by simpa [h] using made
  simp [networkOf, h]

/-- The name of a device is refused exactly when it is reported or is one of a graphics device.
Settings without problems and without such a name give a device and every network. -/
theorem device_of_settings (s : Settings) :
    ((deviceOf s.device).1 = .error (.invalidBackend s.device.kind) ↔
        Reported s ∨ AsksGraphics s.device.kind) ∧
      (validate s = .ok () → ¬AsksGraphics s.device.kind →
        (deviceOf s.device).1 = .ok .portable ∧
          ∀ (p : Precision) (δ : Type) (a : Arena p) (g : Graph),
            (networkOf (δ := δ) s a g).1 =
              .ok ((Network.ofGraph a g s.assembly.maxExpressions).withDevice .portable)) := by
  constructor
  · rw [deviceOf_fst, ← not_iff_not, not_or, ← made_iff]
    by_cases made : smallLetters s.device.kind ∈ ["auto", "portable", "cpu"] <;> simp [made]
  · intro sound plain
    have made : (deviceOf s.device).1 = .ok .portable := by
      rw [deviceOf_fst, if_pos ((made_iff s).mpr ⟨not_reported_of_validate sound, plain⟩)]
    exact ⟨made, fun p δ a g => networkOf_fst made a g⟩

/-- Capital letters do not matter, and a graphics device that is forced but missing is no fault. -/
theorem capital_name_makes_device :
    let s : Settings := { defaults with device := ⟨"CPU", false, true⟩ }
    validate s = .ok () ∧ ¬AsksGraphics s.device.kind ∧ (deviceOf s.device).1 = .ok .portable := by
  intro s
  have sound : validate s = .ok () := (validate_ok_iff s).mpr (by decide +kernel)
  have plain : ¬AsksGraphics s.device.kind := by decide +kernel
  exact ⟨sound, plain, ((device_of_settings s).2 sound plain).1⟩

/-- The name of a graphics device passes the check and is refused, though the portable device is
forced. -/
theorem graphics_name_refused :
    let s : Settings := { defaults with device := ⟨"wgpu", true, false⟩ }
    validate s = .ok () ∧ ¬Reported s ∧
      (deviceOf s.device).1 = .error (.invalidBackend s.device.kind) := by
  intro s
  have sound : validate s = .ok () := (validate_ok_iff s).mpr (by decide +kernel)
  have unknown : smallLetters s.device.kind ∉ ["auto", "portable", "cpu"] := by decide +kernel
  refine ⟨sound, not_reported_of_validate sound, ?_⟩
  rw [deviceOf_fst, if_neg unknown]

end NeuronKernels.DeviceRequests
