import PerceptronMesh.Proofs.Network.Calls
import PerceptronMesh.Proofs.Topology.InPlace

/-!
Calls of configuration that are refused. The calls are written out here as they change a network,
one change after another, so that a fault may come between two changes. None does but one: each
call looks for its faults before it changes anything, and the link from the bias to a group that
was just added is never refused. The exception is an examples file that cannot be read into a
network without a set.
-/

namespace PerceptronMesh

/-- The calls of configuration that can be refused. -/
inductive ConfigurationCall where
  | addGroup (units : Nat) (roles : Roles) (inputFunctions : Option (List InputFunction))
      (outputFunctions : Option (List OutputFunction)) (label : Option String)
  | addLink (source destination : GroupId) (label : Option String)
  | setGroupParams (id : GroupId) (params : GroupParams)
  | setExamplesFile (files : FileTree) (path : Path)

/-- The call among all calls of a network. -/
def ConfigurationCall.networkCall : ConfigurationCall → NetworkCall
  | .addGroup units roles inputFunctions outputFunctions label =>
    .addGroup units roles inputFunctions outputFunctions label
  | .addLink source destination label => .addLink source destination label
  | .setGroupParams id params => .setGroupParams id params
  | .setExamplesFile files path => .setExamplesFile files path

namespace Network

section InPlace

variable {σ : Type}

/-- Changes the topology, and then what depends on it. -/
def changeTopologyInPlace {α : Type} (change : Step Topology α) : Step (Network σ) α := do
  Step.ofResult (← get).ensureNotEnded
  let a ← Step.onPart Network.topology (fun topology n => { n with topology }) change
  modify fun n => n.changeTopology n.topology
  pure a

/-- Replaces a group's own parameters, and then marks what holds them. -/
def setGroupParamsInPlace (id : GroupId) (params : GroupParams) : Step (Network σ) Unit := do
  let n ← get
  Step.ofResult n.ensureNotEnded
  let g ← Step.ofResult (n.topology.group id)
  if !(g.params.eq params) then
    modify fun n => { n with topology := n.topology.modifyGroup id fun g => { g with params } }
    modify markCoresStale

end InPlace

/-- The call with its changes one after another. -/
def inPlace : ConfigurationCall → Step (Network Loopback) Unit
  | .addGroup units roles inputFunctions outputFunctions label => do
    let _ ← changeTopologyInPlace (Topology.addGroupInPlace units roles inputFunctions outputFunctions label)
  | .addLink source destination label => do
    let _ ← changeTopologyInPlace (Step.atOnce fun t => t.addLink source destination label)
  | .setGroupParams id params => setGroupParamsInPlace id params
  | .setExamplesFile files path => do
    let _ ← setExamplesFile files path

/-- What a call of configuration is refused for. Files are read even into a network that has
ended. -/
def Refuses (n : Network Loopback) : ConfigurationCall → Error → Prop
  | .addGroup units roles inputFunctions outputFunctions label, e =>
    n.ended = true ∧ e = .configuration .networkEnded ∨
      ∃ cause, e = .configuration cause ∧
        n.topology.RefusesGroup units roles inputFunctions outputFunctions label cause
  | .addLink source destination _, e =>
    n.ended = true ∧ e = .configuration .networkEnded ∨
      ∃ cause, e = .topology cause ∧ n.topology.RefusesLink source destination cause
  | .setGroupParams id _, e =>
    n.ended = true ∧ e = .configuration .networkEnded ∨
      n.topology.group? id = none ∧ e = .notFound (.group id)
  | .setExamplesFile files path, e =>
    (∃ cause, e = .examples (.unreadable path cause) ∧ files.readText path = .error cause) ∨
      ∃ text, files.readText path = .ok text ∧ Example.readText text.toList = .error e

section Calls

variable {σ : Type}

theorem ensureNotEnded_cases (n : Network σ) :
    n.ended = true ∧ n.ensureNotEnded = .error (.configuration .networkEnded) ∨
      n.ended = false ∧ n.ensureNotEnded = .ok () := by
  unfold ensureNotEnded
  cases n.ended with
  | true => exact .inl ⟨rfl, rfl⟩
  | false => exact .inr ⟨rfl, rfl⟩

/-- A change of the topology at once, and of what depends on it. -/
def changeAtOnce {α : Type} (change : Topology → Result (α × Topology)) (n : Network σ) :
    Result (α × Network σ) := do
  n.ensureNotEnded
  let (a, topology) ← change n.topology
  pure (a, n.changeTopology topology)

theorem changeTopologyInPlace_cases {α : Type} (change : Topology → Result (α × Topology)) (n : Network σ) :
    (∃ e, changeTopologyInPlace (Step.atOnce change) n = .error e n ∧ n.changeAtOnce change = .error e ∧
        (n.ended = true ∧ e = .configuration .networkEnded ∨ change n.topology = .error e)) ∨
      ∃ a later, changeTopologyInPlace (Step.atOnce change) n = .ok a later ∧
        n.changeAtOnce change = .ok (a, later) := by
  unfold changeTopologyInPlace changeAtOnce
  rw [Step.bind_ok (x := get) rfl]
  obtain ⟨hended, hensure⟩ | ⟨_, hensure⟩ := n.ensureNotEnded_cases
  · refine .inl ⟨_, Step.bind_error (Step.ofResult_error hensure), ?_, .inl ⟨hended, rfl⟩⟩
    rw [hensure]
    rfl
  rw [Step.bind_ok (Step.ofResult_ok hensure), hensure]
  cases hchange : change n.topology with
  | error e =>
    exact .inl ⟨e, Step.bind_error (Step.onPart_error (Step.atOnce_error hchange)), rfl,
      .inr rfl⟩
  | ok found =>
    exact .inr ⟨found.1, _, Step.bind_ok (Step.onPart_ok (Step.atOnce_ok hchange)), rfl⟩

/-- Parameters are replaced in a group that there is, if they differ from its own. -/
theorem setGroupParams_cases (n : Network σ) (id : GroupId) (params : GroupParams) :
    (n.ended = true ∧ n.setGroupParams id params = .error (.configuration .networkEnded)) ∨
      (n.ended = false ∧ n.topology.group? id = none ∧ n.setGroupParams id params = .error (.notFound (.group id))) ∨
      ∃ g, n.ended = false ∧ n.topology.group? id = some g ∧ n.setGroupParams id params = .ok
        (if g.params.eq params then n
        else { n with topology := n.topology.modifyGroup id fun g => { g with params } }.markCoresStale) := by
  unfold setGroupParams Topology.group
  obtain ⟨hended, hensure⟩ | ⟨hended, hensure⟩ := n.ensureNotEnded_cases
  · rw [hensure]
    exact .inl ⟨hended, rfl⟩
  rw [hensure]
  cases hgroup : n.topology.group? id with
  | none => exact .inr (.inl ⟨hended, rfl, rfl⟩)
  | some g =>
    refine .inr (.inr ⟨g, hended, rfl, ?_⟩)
    by_cases hsame : g.params.eq params
    · rw [if_pos hsame]
      exact if_pos hsame
    · rw [if_neg hsame]
      exact if_neg hsame

/-- Parameters that are replaced one change after another are replaced as at once. -/
theorem setGroupParamsInPlace_eq (n : Network σ) (id : GroupId) (params : GroupParams) :
    setGroupParamsInPlace id params n =
      match n.setGroupParams id params with
      | .ok later => .ok () later
      | .error e => .error e n := by
  unfold setGroupParamsInPlace setGroupParams
  rw [Step.bind_ok (x := get) rfl]
  cases n.ensureNotEnded with
  | error e => rfl
  | ok _ =>
    rw [Step.bind_ok (Step.ofResult_ok rfl)]
    cases n.topology.group id with
    | error e => rfl
    | ok g =>
      rw [Step.bind_ok (Step.ofResult_ok rfl)]
      cases hsame : g.params.eq params
      all_goals
        show _ = match (if g.params.eq params then pure n else pure _ : Result (Network σ)) with
          | .ok later => _
          | .error e => _
        rw [hsame]
        rfl

end Calls

variable {n later : Network Loopback} {e : Error}

/-- A set for a file that cannot be read. -/
theorem readAt_eq_error {s : ExampleSet} {files : FileTree} {path : Path} (h : s.readAt files path = .error e) :
    (∃ cause, e = .examples (.unreadable path cause) ∧ files.readText path = .error cause) ∨
      ∃ text, files.readText path = .ok text ∧ Example.readText text.toList = .error e := by
  unfold ExampleSet.readAt ExampleSet.readText at h
  cases hread : files.readText path with
  | error cause =>
    rw [hread] at h
    cases h
    exact .inl ⟨cause, rfl, rfl⟩
  | ok text =>
    rw [hread] at h
    cases hparse : Example.readText text.toList with
    | error cause =>
      simp only [hparse] at h
      cases h
      exact .inr ⟨text, rfl, hparse⟩
    | ok contents =>
      simp only [hparse] at h
      cases h

/-- A call of configuration is refused for a cause, and leaves the network as it was unless it
had to make a set for a file; a call that is not refused does what it does at once. -/
theorem Sound.inPlace_cases (hn : n.Sound) (call : ConfigurationCall) :
    (∃ e later, inPlace call n = .error e later ∧ n.Refuses call e ∧ n.afterCall call.networkCall = later ∧
        (later = n ∨ ∃ files path, call = .setExamplesFile files path ∧ n.exampleSet = none ∧
          later = { n with exampleSet := some { label := path.fileStem.getD "examples" } })) ∨
      ∃ later, inPlace call n = .ok () later ∧ n.afterCall call.networkCall = later := by
  cases call with
  | addGroup units roles inputFunctions outputFunctions label =>
    have hplace := changeTopologyInPlace_cases
      (fun t => t.addGroup units roles inputFunctions outputFunctions label) n
    rw [← Topology.addGroupInPlace_eq] at hplace
    obtain ⟨e, hplace, hcall, hcause⟩ | ⟨id, later, hplace, hcall⟩ := hplace
    · refine .inl ⟨e, n, Step.bind_error hplace, hcause.imp_right ?_, ?_, .inl rfl⟩
      · intro hadd
        obtain ⟨_, _, hother, ⟨htaken, rfl⟩ | ⟨_, _, hmake⟩⟩ | ⟨_, _, _, hother⟩ :=
          n.topology.addGroupInPlace_cases units roles inputFunctions outputFunctions label
        · cases hadd.symm.trans hother
          exact ⟨_, rfl, .labelInUse htaken⟩
        · cases hadd.symm.trans hother
          exact Topology.refusesGroup_of_make hn.topology.cap_pos hmake
        · cases hadd.symm.trans hother
      · exact orKeep_error hcall
    · exact .inr ⟨later, Step.bind_ok hplace, orKeep_ok hcall⟩
  | addLink source destination label =>
    obtain ⟨e, hplace, hcall, hcause⟩ | ⟨id, later, hplace, hcall⟩ := changeTopologyInPlace_cases
      (fun t => t.addLink source destination label) n
    · exact .inl ⟨e, n, Step.bind_error hplace, hcause.imp_right Topology.refusesLink_of_addLink,
        orKeep_error hcall, .inl rfl⟩
    · exact .inr ⟨later, Step.bind_ok hplace, orKeep_ok hcall⟩
  | setGroupParams id params =>
    have hplace := n.setGroupParamsInPlace_eq id params
    obtain ⟨hended, h⟩ | ⟨_, hmissing, h⟩ | ⟨g, _, _, h⟩ := n.setGroupParams_cases id params
    all_goals rw [h] at hplace
    · exact .inl ⟨_, n, hplace, .inl ⟨hended, rfl⟩, orKeep_error h, .inl rfl⟩
    · exact .inl ⟨_, n, hplace, .inr ⟨hmissing, rfl⟩, orKeep_error h, .inl rfl⟩
    · exact .inr ⟨_, hplace, orKeep_ok h⟩
  | setExamplesFile files path =>
    obtain ⟨e, hread, h⟩ | ⟨count, read, _, h⟩ := setExamplesFile_cases n files path
    · refine .inl ⟨e, _, Step.bind_error h, readAt_eq_error hread, Step.after_error h, ?_⟩
      cases hset : n.exampleSet with
      | none =>
        refine .inr ⟨files, path, rfl, rfl, ?_⟩
        rw [exampleSetFor, hset]
        rfl
      | some s =>
        refine .inl ?_
        rw [exampleSetFor, hset, Option.getD_some, ← hset]
    · exact .inr ⟨_, Step.bind_ok h, Step.after_ok h⟩

/-- What the calls come to, with their changes one after another, is what they do at once. -/
theorem Sound.after_inPlace (hn : n.Sound) (call : ConfigurationCall) :
    Step.after (inPlace call) n = n.afterCall call.networkCall := by
  obtain ⟨_, _, h, _, hcall, _⟩ | ⟨_, h, hcall⟩ := hn.inPlace_cases call
  · rw [Step.after_error h, hcall]
  · rw [Step.after_ok h, hcall]

/-- A call of configuration that is refused is refused for one of the listed causes, wherever on
its way the fault comes, and leaves the network as it was. The exception is a file that cannot be
read into a network without a set, which is left with an empty set named after the file. -/
theorem Reachable.refused_spec (hn : n.Reachable) {call : ConfigurationCall} {later : Network Loopback}
    (h : inPlace call n = .error e later) :
    n.Refuses call e ∧ n.afterCall call.networkCall = later ∧
      (later = n ∨ ∃ files path, call = .setExamplesFile files path ∧ n.exampleSet = none ∧
        later = { n with exampleSet := some { label := path.fileStem.getD "examples" } }) := by
  obtain ⟨_, _, hplace, hcause, hcall, hlater⟩ | ⟨_, hplace, _⟩ := hn.sound.inPlace_cases call
  · cases h.symm.trans hplace
    exact ⟨hcause, hcall, hlater⟩
  · cases h.symm.trans hplace

/-- A second group with the label of the bias. -/
def secondBias : ConfigurationCall := .addGroup 1 (.ofList [.hidden]) none none (some Topology.biasLabel)

/-- A label that is taken is found before there is a group with it. -/
theorem refused_spec_taken_label : ∃ n, Network.make {} {} ({ keySpace := 65536 } : Loopback) = .ok n ∧
    inPlace secondBias n = .error (.configuration (.labelInUse Topology.biasLabel)) n ∧
    n.afterCall secondBias.networkCall = n := by
  obtain ⟨n, hmake, later, h⟩ : ∃ n, Network.make {} {} ({ keySpace := 65536 } : Loopback) = .ok n ∧
      ∃ later, inPlace secondBias n = .error (.configuration (.labelInUse Topology.biasLabel)) later :=
    ⟨_, rfl, _, rfl⟩
  obtain ⟨_, hcall, rfl | ⟨_, _, hother, _⟩⟩ := Reachable.refused_spec (.make hmake) h
  · exact ⟨later, hmake, h, hcall⟩
  · cases hother

/-- After a file that is not there a stage finds a set without examples, where without the call
it would find no set. -/
theorem refused_examples_file_attaches : ∃ n, Network.make {} {} ({ keySpace := 65536 } : Loopback) = .ok n ∧
    ∃ refused later last,
      inPlace (.setExamplesFile {} ⟨"digits.ex"⟩) (n.setWeightsFile ⟨"weights"⟩) =
        .error (.examples (.unreadable ⟨"digits.ex"⟩ .notFound)) refused ∧
      (n.setWeightsFile ⟨"weights"⟩).exampleSet = none ∧ refused.exampleSet = some { label := "digits" } ∧
      (StageCall.train noLinkFiles none none).run (n.setWeightsFile ⟨"weights"⟩) =
        .ok (.aborted .noExampleSet) later ∧
      (StageCall.train noLinkFiles none none).run refused = .ok (.aborted .examplesNotLoaded) last :=
  ⟨_, rfl, _, _, _, rfl, rfl, rfl, rfl, rfl⟩

end Network

end PerceptronMesh
