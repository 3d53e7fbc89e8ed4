import PerceptronMesh.Example.Header

/-!
Value lists of example text. A list key is followed by values for the only group
of its side and by named groups in parentheses.
-/

namespace PerceptronMesh.Example

open Numeric

/-- Values that stand after one list key, as they are written. -/
structure Runs where
  plain : List String := []
  named : List (String × List String) := []
deriving DecidableEq, Repr

namespace Runs

/-- The runs with their group names, values without a name first. -/
def groups (runs : Runs) : List (Option String × List String) :=
  (if runs.plain.isEmpty then [] else [(none, runs.plain)]) ++
    runs.named.map fun (name, values) => (some name, values)

end Runs

/-- Tokens that end the values of a list key. -/
def Token.endsRuns : Token → Bool
  | .key _ | .blockOpen | .blockClose => true
  | _ => false

/-- The values after a list key and the tokens that follow them. In parentheses
    every token counts as a value. -/
def readRuns (tokens : List Token) : Result (Runs × List Token) :=
  match tokens with
  | [] => .ok ({}, [])
  | [.groupOpen] | .groupOpen :: .groupClose :: _ => .error (.examples .namelessList)
  | .groupOpen :: label :: rest =>
    let values := rest.takeWhile (· != .groupClose)
    match _h : rest.dropWhile (· != .groupClose) with
    | [] => .error (.examples (.unclosedList label.text))
    | _ :: after => do
      let (runs, rest) ← readRuns after
      pure ({ runs with named := (label.text, values.map Token.text) :: runs.named }, rest)
  | token :: rest =>
    if token.endsRuns then .ok ({}, token :: rest)
    else do
      let (runs, rest) ← readRuns rest
      pure ({ runs with plain := token.text :: runs.plain }, rest)
termination_by tokens.length
decreasing_by
  · have hle : (rest.dropWhile (· != .groupClose)).length ≤ rest.length :=
      (List.dropWhile_sublist _).length_le
    simp_all
    omega
  · simp

theorem length_of_readRuns {tokens rest : List Token} {runs : Runs}
    (h : readRuns tokens = .ok (runs, rest)) : rest.length ≤ tokens.length := by
  fun_induction readRuns tokens generalizing runs rest with
  | case1 => cases h; exact Nat.le_refl _
  | case2 => cases h
  | case3 => cases h
  | case4 => cases h
  | case5 label tokens hlabel values head after hdrop =>
    rename_i ih
    obtain ⟨⟨inner, remaining⟩, hinner, hok⟩ := bind_eq_ok_iff.1 h
    cases hok
    have hafter := ih hinner
    have hle := (List.dropWhile_sublist (fun t : Token => t != .groupClose) (l := tokens)).length_le
    rw [hdrop] at hle
    simp only [List.length_cons] at hle ⊢
    omega
  | case6 => cases h; exact Nat.le_refl _
  | case7 token tokens _ _ _ hends ih =>
    obtain ⟨⟨inner, remaining⟩, hinner, hok⟩ := bind_eq_ok_iff.1 h
    cases hok
    have hafter := ih hinner
    simp only [List.length_cons]
    omega

/-- What a list key says about its values. -/
structure ListKey where
  input : Bool := false
  target : Bool := false
  sparse : Bool := false
deriving DecidableEq, Repr

def Token.listKey? : Token → Option ListKey
  | .key "I" => some { input := true }
  | .key "i" => some { input := true, sparse := true }
  | .key "T" => some { target := true }
  | .key "t" => some { target := true, sparse := true }
  | .key "B" => some { input := true, target := true }
  | .key "b" => some { input := true, target := true, sparse := true }
  | _ => none

/-- Value lists of an event. -/
structure EventLists where
  inputs : List ValueList := []
  targets : List ValueList := []
deriving DecidableEq, Repr

def EventLists.append (a b : EventLists) : EventLists :=
  ⟨a.inputs ++ b.inputs, a.targets ++ b.targets⟩

/-- Reads the index of a unit in a sparse list. -/
def readUnit (text : String) : Result Nat :=
  match readNatural maxWord32 text.toList with
  | some unit => .ok unit
  | none => .error (.examples (.badUnit text))

/-- Reads the values of one list; `active` is taken by units of a sparse one. -/
def readList (sparse : Bool) (active : Binary64) (group : Option String) (values : List String) :
    Result ValueList := do
  if sparse then return ⟨group, .sparse (← values.mapM readUnit) active⟩
  else return ⟨group, .dense (← values.mapM readValue)⟩

/-- What listed units of sparse lists take. -/
structure Active where
  input : Binary64
  target : Binary64

/-- The lists of one run, for one side or both. -/
def listsOf (active : Active) (key : ListKey) (group : Option String) (values : List String) :
    Result EventLists := do
  let inputs ← if key.input then (readList key.sparse active.input group values).map ([·])
    else pure []
  let targets ← if key.target then (readList key.sparse active.target group values).map ([·])
    else pure []
  pure ⟨inputs, targets⟩

/-- All lists after one list key. -/
def listsOfRuns (active : Active) (key : ListKey) (runs : Runs) : Result EventLists :=
  runs.groups.foldlM (fun lists (group, values) =>
    (listsOf active key group values).map lists.append) {}

/-- Lists up to the first token that is no list key. -/
def readLists (active : Active) (tokens : List Token) : Result (EventLists × List Token) :=
  match tokens with
  | [] => .ok ({}, [])
  | token :: rest =>
    match token.listKey? with
    | none => .ok ({}, token :: rest)
    | some key =>
      match _h : readRuns rest with
      | .error e => .error e
      | .ok (runs, after) => do
        let lists ← listsOfRuns active key runs
        let (more, remaining) ← readLists active after
        pure (lists.append more, remaining)
termination_by tokens.length
decreasing_by
  have := length_of_readRuns _h
  simp
  omega

theorem length_of_readLists {active : Active} {tokens rest : List Token} {lists : EventLists}
    (h : readLists active tokens = .ok (lists, rest)) : rest.length ≤ tokens.length := by
  fun_induction readLists active tokens generalizing lists rest with
  | case1 => cases h; exact Nat.le_refl _
  | case2 => cases h; exact Nat.le_refl _
  | case3 => cases h
  | case4 token tokens key _ runs after hruns =>
    rename_i ih
    obtain ⟨first, _, h⟩ := bind_eq_ok_iff.1 h
    obtain ⟨⟨more, remaining⟩, hmore, hok⟩ := bind_eq_ok_iff.1 h
    cases hok
    have hafter := length_of_readRuns hruns
    have hremaining := ih hmore
    simp only [List.length_cons]
    omega

end PerceptronMesh.Example
