import PerceptronMesh.Placement.Echo
import PerceptronMesh.Proofs.Payload.Layout
import PerceptronMesh.Proofs.Topology.Frame

/-!
Core regions: their lengths, what can be read back from them, and what they depend on. No
Core region depends on weights, those of Sum and Input units do not depend on learning
parameters and criteria, and numbers that are equal give equal bytes.
-/

namespace PerceptronMesh

open Wire Fixed Numeric

/-- A word in a Core region, by its offset. -/
def coreWord (core : List UInt8) (offset : Nat) : Nat := ofLittleEndian ((core.drop offset).take 4)

theorem Wire.length_encode (fields : List Field) :
    (encode fields).length = (fields.map Field.width).sum := by
  induction fields with
  | nil => rfl
  | cons field rest ih =>
    rw [← List.singleton_append, encode_append, List.length_append, ih]
    simp [encode]

theorem sum_width_codeFields (codes : List UInt8) :
    ((codeFields codes).map Field.width).sum = codes.length * 4 := by
  have hwidths : (codeFields codes).map Field.width = List.replicate codes.length 4 := by
    simp [codeFields, List.eq_replicate_iff, Field.width]
  rw [hwidths, List.sum_replicate_nat]

namespace WeightCore

@[simp] theorem length_bytes (c : WeightCore) : c.bytes.length = size := rfl

end WeightCore

namespace SumCore

@[simp] theorem length_bytes (c : SumCore) : c.bytes.length = size := rfl

end SumCore

namespace InputCore

@[simp] theorem length_bytes (c : InputCore) : c.bytes.length = size := by
  unfold bytes fields
  rw [length_encode, List.map_append, List.map_append, List.sum_append_nat, List.sum_append_nat,
    sum_width_codeFields, Vector.length_toList]
  simp only [List.map_cons, List.map_nil, Field.flag, Field.width, List.sum_cons, List.sum_nil,
    Format.width, Nat.reduceAdd]
  rfl

end InputCore

namespace ThresholdCore

@[simp] theorem length_bytes (c : ThresholdCore) : c.bytes.length = size := by
  unfold bytes fields
  rw [length_encode, List.map_append, List.map_append, List.sum_append_nat, List.sum_append_nat,
    sum_width_codeFields, Vector.length_toList]
  simp only [List.map_cons, List.map_nil, Field.flag, Field.width, List.sum_cons, List.sum_nil,
    Format.width, Nat.reduceAdd]
  rfl

end ThresholdCore

namespace PayloadSource

variable {s : PayloadSource} {u : MeshUnit}

/-- A Core region comes from the unit's group and, for a Weight unit, its source's group. -/
theorem coreRegion_eq_ok {core : List UInt8} (h : s.coreRegion u = .ok core) :
    ∃ g, s.topology.group u.group = .ok g ∧
      ((u.role = .weight ∧ ∃ from_ fromSubgroup source, weightSource u = .ok (from_, fromSubgroup) ∧
          s.topology.group from_ = .ok source ∧ core = (s.weightCore g source fromSubgroup u).bytes) ∨
        (u.role = .sum ∧ core = (s.sumCore u).bytes) ∨
        (u.role = .input ∧ core = (s.inputCore g u).bytes) ∨
        (u.role = .threshold ∧ core = (s.thresholdCore g u).bytes)) := by
  unfold coreRegion at h
  obtain ⟨g, hg, h⟩ := bind_eq_ok_iff.1 h
  refine ⟨g, hg, ?_⟩
  cases hrole : u.role with
  | weight =>
    rw [hrole] at h
    obtain ⟨⟨from_, fromSubgroup⟩, hfrom, h⟩ := bind_eq_ok_iff.1 h
    obtain ⟨source, hsource, h⟩ := bind_eq_ok_iff.1 h
    cases h
    exact .inl ⟨rfl, from_, fromSubgroup, source, hfrom, hsource, rfl⟩
  | sum =>
    rw [hrole] at h
    cases h
    exact .inr (.inl ⟨rfl, rfl⟩)
  | input =>
    rw [hrole] at h
    cases h
    exact .inr (.inr (.inl ⟨rfl, rfl⟩))
  | threshold =>
    rw [hrole] at h
    cases h
    exact .inr (.inr (.inr ⟨rfl, rfl⟩))

/-- No Core region is shorter than that of a Sum unit. -/
theorem length_coreRegion {core : List UInt8} (h : s.coreRegion u = .ok core) :
    SumCore.size ≤ core.length := by
  obtain ⟨g, _, ⟨_, _, _, _, _, _, rfl⟩ | ⟨_, rfl⟩ | ⟨_, rfl⟩ | ⟨_, rfl⟩⟩ := coreRegion_eq_ok h
  · rw [WeightCore.length_bytes]
    decide
  · rw [SumCore.length_bytes]
  · rw [InputCore.length_bytes]
    decide
  · rw [ThresholdCore.length_bytes]
    decide

/-- What ignores a part of every group cannot tell topologies apart that differ there. -/
theorem congr_of_blank {α : Type} {f : PayloadSource → α} {blank : Group → Group}
    (hblank : ∀ s : PayloadSource, f { s with topology := s.topology.mapGroups blank } = f s)
    {t : Topology} (h : t.mapGroups blank = s.topology.mapGroups blank) :
    f { s with topology := t } = f s := by
  rw [← hblank s, ← h]
  exact (hblank { s with topology := t }).symm

/-- Core regions do not depend on weights. -/
theorem coreRegion_of_withoutWeights {t : Topology}
    (h : t.mapGroups Group.withoutWeights = s.topology.mapGroups Group.withoutWeights) (u : MeshUnit) :
    { s with topology := t }.coreRegion u = s.coreRegion u := by
  refine congr_of_blank (f := fun s => s.coreRegion u) (fun s => ?_) h
  unfold coreRegion
  simp only [Topology.group_mapGroups]
  cases s.topology.group u.group with
  | error e => rfl
  | ok g =>
    cases u.role with
    | weight =>
      show (weightSource u >>= fun _ => _) = (weightSource u >>= fun _ => _)
      cases weightSource u with
      | error e => rfl
      | ok place =>
        show ((s.topology.group place.1).map _ >>= fun _ => _) = (s.topology.group place.1 >>= fun _ => _)
        cases s.topology.group place.1 with
        | error e => rfl
        | ok source => rfl
    | sum | input | threshold => rfl

/-- Core regions of Sum and Input units do not depend on their groups' parameters. -/
theorem coreRegion_of_withoutParams {t : Topology}
    (h : t.mapGroups Group.withoutParams = s.topology.mapGroups Group.withoutParams)
    (hrole : u.role = .sum ∨ u.role = .input) :
    { s with topology := t }.coreRegion u = s.coreRegion u := by
  refine congr_of_blank (f := fun s => s.coreRegion u) (fun s => ?_) h
  unfold coreRegion
  simp only [Topology.group_mapGroups]
  cases s.topology.group u.group with
  | error e => rfl
  | ok g => rcases hrole with hrole | hrole <;> rw [hrole] <;> rfl

/-- Core regions of Sum and Input units do not depend on what a call can change of the settings. -/
theorem coreRegion_of_apply (params : NetworkParams) (hrole : u.role = .sum ∨ u.role = .input) :
    { s with settings := s.settings.apply params }.coreRegion u = s.coreRegion u := by
  have hsum : { s with settings := s.settings.apply params }.sumCore u = s.sumCore u := rfl
  have hinput (g : Group) :
      { s with settings := s.settings.apply params }.inputCore g u = s.inputCore g u := rfl
  unfold coreRegion
  rcases hrole with hrole | hrole
  · simp only [hrole, hsum]
  · simp only [hrole, hinput]

end PayloadSource

/-- Both zeros are written alike, and other numbers are equal only to themselves. -/
theorem Fixed.Value.ofBinary64_of_eq {f : Format} {x y : Binary64} (h : x.eq y) :
    (ofBinary64 x : Value f) = ofBinary64 y := by
  have hzero (negative : Bool) (power : Int) : f.clamp (roundAway negative 0 power) = f.clamp 0 := by
    have hden : 0 < Nat.pow 2 (-power).toNat := Nat.pow_pos (by decide)
    have hround : roundDiv .up 0 (Nat.pow 2 (-power).toNat) = 0 := by
      rw [roundDiv_of_dvd .up hden (Nat.dvd_zero _), Nat.zero_div]
    cases negative <;> simp only [roundAway, scaleByPower, Nat.zero_mul, hround] <;> rfl
  have hencode : f.encode x = f.encode y := by
    unfold Binary64.eq at h
    split at h
    · cases h
    · cases h
    · rename_i hx hy
      simp only [Format.encode, hx, hy, hzero]
    · have hbits : x.bits = y.bits := of_decide_eq_true h
      have hsame : x = y := by rw [Binary64.mk.injEq]; exact hbits
      rw [hsame]
  unfold ofBinary64 Value.encode
  rw [hencode]

namespace PayloadSource

variable {s : PayloadSource} {u : MeshUnit}

theorem rate_of_eq {linked : Bool} {own : Option Binary64} {x y : Binary64} (h : x.eq y) :
    rate linked own x = rate linked own y := by
  unfold rate
  cases linked with
  | false => rfl
  | true =>
    cases own with
    | none => exact Value.ofBinary64_of_eq h
    | some value => rfl

theorem criterion_of_eq {own x y : Option Binary64} (h : Binary64.eqOption x y) :
    criterion own x = criterion own y := by
  unfold criterion
  cases own with
  | some value => rfl
  | none =>
    cases x <;> cases y <;> simp only [Binary64.eqOption, Bool.false_eq_true] at h
    · rfl
    · exact Value.ofBinary64_of_eq h

/-- Settings whose parameters are equal as numbers give equal Core regions. -/
theorem coreRegion_of_not_differ (params : NetworkParams)
    (h : (s.settings.apply params).unitParamsDiffer s.settings = false) (u : MeshUnit) :
    { s with settings := s.settings.apply params }.coreRegion u = s.coreRegion u := by
  simp only [Settings.unitParamsDiffer, Bool.not_eq_false', Bool.and_eq_true] at h
  obtain ⟨⟨⟨⟨hrate, hdecay⟩, hmomentum⟩, htrain⟩, htest⟩ := h
  have hweight (g source : Group) (fromSubgroup : Nat) :
      { s with settings := s.settings.apply params }.weightCore g source fromSubgroup u =
        s.weightCore g source fromSubgroup u := by
    simp only [weightCore, rate_of_eq hrate, rate_of_eq hdecay, rate_of_eq hmomentum]
  have hthreshold (g : Group) : { s with settings := s.settings.apply params }.thresholdCore g u =
      s.thresholdCore g u := by
    simp only [thresholdCore, criterion_of_eq htrain, criterion_of_eq htest]
    rfl
  unfold coreRegion
  simp only [hweight, hthreshold]
  rfl

/-- A role's own regions do not depend on parameters, nor, but for Weight units, on weights. -/
theorem ownRegions_of_withoutWeights {t : Topology}
    (h : t.mapGroups Group.withoutWeights = s.topology.mapGroups Group.withoutWeights)
    (hrole : u.role ≠ .weight) : { s with topology := t }.ownRegions u = s.ownRegions u := by
  refine congr_of_blank (f := fun s => s.ownRegions u) (fun s => ?_) h
  unfold ownRegions
  rw [Topology.group_mapGroups]
  cases s.topology.group u.group with
  | error e => rfl
  | ok g =>
    show roleRegions _ g.withoutWeights u = roleRegions _ g u
    unfold roleRegions
    cases hu : u.role with
    | weight => exact absurd hu hrole
    | sum | input | threshold => rfl

theorem weightsRegion_of_withoutParams (s : PayloadSource) (u : MeshUnit) :
    { s with topology := s.topology.mapGroups Group.withoutParams }.weightsRegion u = s.weightsRegion u := by
  unfold weightsRegion
  simp only [Topology.group_mapGroups]
  cases weightSource u with
  | error e => rfl
  | ok place =>
    show ((s.topology.group u.group).map _ >>= fun _ => _) = (s.topology.group u.group >>= fun _ => _)
    cases s.topology.group u.group with
    | error e => rfl
    | ok target =>
      show ((s.topology.group place.1).map _ >>= fun _ => _) = (s.topology.group place.1 >>= fun _ => _)
      cases s.topology.group place.1 with
      | error e => rfl
      | ok source => rfl

theorem ownRegions_of_withoutParams {t : Topology}
    (h : t.mapGroups Group.withoutParams = s.topology.mapGroups Group.withoutParams) (u : MeshUnit) :
    { s with topology := t }.ownRegions u = s.ownRegions u := by
  refine congr_of_blank (f := fun s => s.ownRegions u) (fun s => ?_) h
  unfold ownRegions
  rw [Topology.group_mapGroups]
  cases s.topology.group u.group with
  | error e => rfl
  | ok g =>
    show roleRegions _ g.withoutParams u = roleRegions _ g u
    unfold roleRegions
    cases u.role with
    | weight =>
      show (_ >>= fun _ => _) = (_ >>= fun _ => _)
      rw [weightsRegion_of_withoutParams]
    | sum | input | threshold => rfl

end PayloadSource

end PerceptronMesh
