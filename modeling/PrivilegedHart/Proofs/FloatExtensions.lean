import PrivilegedHart.Proofs.WellFormed

/-!
# Double precision and single precision

A write of `misa` that asks for double precision without single precision gets neither.  The rule looks at
the written value, and what is stored is a merge of that value with the old one, as far as the hart has the
extensions.  The result is that no hart ever shows `D` without `F`, provided that its maximal instruction
set does not; `misa` comes out of reset with that set, and nothing in a valid configuration restricts it.
-/

namespace PrivilegedHart

open Word

namespace Isa

/-- Without `F` there is no `D`. -/
def DoubleNeedsSingle (isa : Word) : Prop := isa &&& single = 0 → isa &&& double = 0

instance (isa : Word) : Decidable (DoubleNeedsSingle isa) :=
  inferInstanceAs (Decidable (isa &&& single = 0 → isa &&& double = 0))

variable {isa isa' maxIsa : Word}

theorem DoubleNeedsSingle.of_agreeOn (h : DoubleNeedsSingle isa)
    (hsingle : AgreeOn single isa' isa) (hdouble : AgreeOn double isa' isa) :
    DoubleNeedsSingle isa' := by
  intro hclear
  rw [hdouble]
  exact h (hsingle ▸ hclear)

theorem doubleNeedsSingle_normalize (value : Word) : DoubleNeedsSingle (normalize value) := by
  unfold normalize
  split
  · intro _
    rw [BitVec.and_assoc, BitVec.not_and_self]
    exact BitVec.and_zero
  · next hsingle =>
      intro hclear
      exact absurd hclear hsingle

/-- A write restores the rule, whatever was stored before.  Either the hart has no `D`, or it has both
extensions and takes both from the written value. -/
theorem doubleNeedsSingle_merge (hmax : DoubleNeedsSingle maxIsa) (hisa : Within maxIsa isa)
    (value : Word) :
    DoubleNeedsSingle (BitField.merge isa (normalize value) (writable &&& maxIsa)) := by
  have hdouble : maxIsa &&& double = 0 ∨ maxIsa &&& double = double := and_bit maxIsa 3
  have hsingle : maxIsa &&& single = 0 ∨ maxIsa &&& single = single := and_bit maxIsa 5
  have htaken : ∀ extension : Word, maxIsa &&& extension = extension →
      extension &&& writable = extension →
        AgreeOn extension (BitField.merge isa (normalize value) (writable &&& maxIsa))
          (normalize value) := by
    intro extension hhas hwritable
    refine (agreeOn_merge_new ..).mono ?_
    rw [← BitVec.and_assoc, hwritable, BitVec.and_comm, hhas]
  rcases hdouble with hnone | hdouble
  · intro _
    exact (Hart.within_misa hisa (normalize value)).and_eq_zero hnone
  · rcases hsingle with hnone | hsingle
    · rw [hmax hnone] at hdouble
      exact absurd hdouble (by decide)
    · exact (doubleNeedsSingle_normalize value).of_agreeOn (htaken single hsingle (by decide))
        (htaken double hdouble (by decide))

end Isa

namespace Hart

open Isa

variable {answers : Answers} {h h' : Hart}

/-- Only a write of `misa` changes it. -/
theorem misa_of_effect {op : Operation} {result : Except Unwind Reply} {calls : List PlatformCall}
    (heffect : Effect answers h op result h' calls) :
    h'.csrs.misa = h.csrs.misa ∨ ∃ value, h'.csrs.misa =
      BitField.merge h.csrs.misa (normalize value) (writable &&& h.maxIsa) := by
  cases heffect with
  | quiet hsame => exact Or.inl (by rw [hsame.csrs])
  | trapped hsame hcalls => exact Or.inl (by rw [hsame.csrs])
  | @written _ _ _ r value hop hwrite =>
      cases r with
      | misa => exact Or.inr ⟨_, rfl⟩
      | _ => exact Or.inl rfl
  | _ => exact Or.inl rfl

/-- What a run keeps on a hart whose maximal instruction set follows the rule. -/
structure FollowsRule (c : Config) (h : Hart) : Prop where
  built : BuiltFrom c h
  wellFormed : WellFormed h
  rule : DoubleNeedsSingle h.csrs.misa

theorem FollowsRule.effect {c : Config} (hmax : DoubleNeedsSingle c.effectiveMaxIsa)
    (follows : FollowsRule c h) {op : Operation} {result : Except Unwind Reply}
    {calls : List PlatformCall} (heffect : Effect answers h op result h' calls) :
    FollowsRule c h' where
  built := follows.built.effect heffect
  wellFormed := follows.wellFormed.effect heffect
  rule := by
    rcases misa_of_effect heffect with hkept | ⟨value, hwritten⟩
    · rw [hkept]
      exact follows.rule
    · rw [hwritten]
      rw [← follows.built.maxIsa] at hmax
      exact doubleNeedsSingle_merge hmax follows.wellFormed.misa value

/-- On the harts of a valid configuration there is never `D` without `F`, exactly if its maximal instruction
set has no `D` without `F`. -/
theorem reachable_doubleNeedsSingle_iff {c : Config} (hc : c.validate = .ok ()) :
    (∀ h, Reachable c h → DoubleNeedsSingle h.csrs.misa) ↔ DoubleNeedsSingle c.effectiveMaxIsa := by
  obtain ⟨p, hofConfig, -⟩ := ofConfig_of_validate hc
  constructor
  · intro hall
    exact hall _ (Reachable.atReset hofConfig)
  · rintro hmax h ⟨h₀, platform, ops, hc₀, rfl⟩
    obtain ⟨p₀, rfl⟩ := eq_atReset_of_ofConfig hc₀
    have hreset : FollowsRule c (Session.start (atReset c p₀)).hart :=
      ⟨⟨rfl, rfl, rfl, rfl⟩, .reset c p₀, hmax⟩
    have hrun : FollowsRule c ((Session.start (atReset c p₀)).run platform ops).2.hart :=
      Session.run_invariant (fun follows heffect => follows.effect hmax heffect) hreset ops
    exact hrun.rule

/-- The default instruction set has both extensions. -/
theorem reachable_doubleNeedsSingle_default :
    ({} : Config).validate = .ok () ∧ ∀ h, Reachable {} h → DoubleNeedsSingle h.csrs.misa :=
  ⟨Config.validate_default,
    (reachable_doubleNeedsSingle_iff Config.validate_default).2 (by decide)⟩

/-- With the base instructions and `D` alone a configuration is valid, and its hart comes out of reset
with `D` and without `F`. -/
theorem not_reachable_doubleNeedsSingle :
    ¬ ∀ c : Config, c.validate = .ok () → ∀ h, Reachable c h → DoubleNeedsSingle h.csrs.misa := by
  intro hall
  let c : Config := { maxIsa := some (base ||| double) }
  have hvalid : c.validate = .ok () := c.validate_eq_ok_iff.2 (by decide +kernel)
  have hofConfig : ofConfig c = .ok (atReset c .machine) := by rfl
  exact absurd (hall c hvalid _ (Reachable.atReset hofConfig)) (by decide)

end Hart
end PrivilegedHart
