import PrivilegedHart.Proofs.WellFormed

/-!
# Where the root of the page table lies

`sptbr` holds the number of a page, and a write cuts it down to the pages of the physical address space.  So
the root of the page table always starts within that space, and it can be any page of it, the last one
included.

Whether the byte address of the root is a word is another question.  A valid configuration may give the
physical address space two bits more than a register has, on 64-bit harts as on 32-bit ones.  The address of
every root is a word exactly if the space has at most 64 bits.
-/

namespace PrivilegedHart

open Word

theorem Xlen.mask_eq_lowBits (x : Xlen) : x.mask = lowBits x.bits := by
  cases x <;> decide

namespace Config

variable {c : Config}

theorem physAddrBits_of_validate (hc : c.validate = .ok ()) :
    Page.shift < c.effectivePhysAddrBits.toNat ∧
      c.effectivePhysAddrBits.toNat ≤ c.xlen.bits + 2 := by
  obtain ⟨-, hbits, -⟩ := c.validate_eq_ok_iff.1 hc
  simpa only [hasUsablePhysAddrs, Bool.and_eq_true, decide_eq_true_eq] using hbits

/-- A register is wide enough for every page number. -/
theorem pageNumberBits_le (hc : c.validate = .ok ()) :
    c.effectivePhysAddrBits.toNat - Page.shift ≤ c.xlen.bits := by
  have hle := (physAddrBits_of_validate hc).2
  have hshift : Page.shift = 12 := rfl
  omega

/-- The number of the last page of the physical address space. -/
def lastPage (c : Config) : Word :=
  BitVec.ofNat 64 (2 ^ (c.effectivePhysAddrBits.toNat - Page.shift) - 1)

theorem toNat_lastPage (hc : c.validate = .ok ()) :
    c.lastPage.toNat = 2 ^ (c.effectivePhysAddrBits.toNat - Page.shift) - 1 := by
  have hwidth : c.effectivePhysAddrBits.toNat - Page.shift ≤ 64 :=
    Nat.le_trans (pageNumberBits_le hc) (by cases c.xlen <;> decide)
  have hpow : 2 ^ (c.effectivePhysAddrBits.toNat - Page.shift) ≤ 2 ^ 64 :=
    Nat.pow_le_pow_right (by omega) hwidth
  have hpos : 0 < 2 ^ (c.effectivePhysAddrBits.toNat - Page.shift) := Nat.two_pow_pos _
  rw [lastPage, BitVec.toNat_ofNat]
  exact Nat.mod_eq_of_lt (by omega)

end Config

namespace Hart

open HartAction

/-! ## The address of the root -/

/-- The byte at which the root of the page table starts, as a number without bound. -/
def rootByte (h : Hart) : Nat := h.csrs.sptbr.toNat * Page.size.toNat

/-- The physical address of the root of the page table, as words compute it. -/
def rootAddr (h : Hart) : PhysAddr := ⟨h.csrs.sptbr <<< Page.shift⟩

/-- The address of the root is a word: no bit of the page number is lost when it is moved up. -/
def RootFits (h : Hart) : Prop := h.rootAddr.value.toNat = h.rootByte

variable {c : Config} {h : Hart}

theorem rootFits_iff : h.RootFits ↔ h.rootByte < 2 ^ 64 := by
  have hbyte : h.rootByte = h.csrs.sptbr.toNat * 2 ^ Page.shift := rfl
  rw [RootFits, rootAddr, BitVec.toNat_shiftLeft, Nat.shiftLeft_eq, ← hbyte]
  constructor
  · intro hfits
    rw [← hfits]
    exact Nat.mod_lt _ (Nat.two_pow_pos 64)
  · exact Nat.mod_eq_of_lt

theorem two_pow_mul_pageSize {bits : Nat} (hbits : Page.shift < bits) :
    2 ^ (bits - Page.shift) * Page.size.toNat = 2 ^ bits :=
  Nat.pow_sub_mul_pow 2 (Nat.le_of_lt hbits)

theorem rootByte_lt (wf : h.WellFormed) (hbits : Page.shift < h.physAddrBits.toNat) :
    h.rootByte < 2 ^ h.physAddrBits.toNat := by
  rw [← two_pow_mul_pageSize hbits]
  exact Nat.mul_lt_mul_of_pos_right wf.sptbr (by decide)

/-! ## The last page as a root -/

theorem writeDecision_sptbr (hmachine : h.privilege = .machine) :
    h.writeDecision .sptbr = .ok .sptbr := by
  have opens : Opens .sptbr .sptbr := ⟨⟨_, rfl, rfl, rfl⟩, fun _ => rfl, fun _ => rfl⟩
  rw [opens.writeDecision_iff, hmachine]
  decide

/-- After a switch to Machine mode, a written value reaches `sptbr`. -/
theorem hart_run_writeRoot (platform : Platform) (h : Hart) (value : Word) :
    ((Session.start h).run platform [.setPrivilege 3, .writeCsr .sptbr value]).2.hart =
      { h with privilege := .machine }.afterInstall .sptbr (h.xlen.truncate value) := by
  have hlevel : Privilege.ofLevel? 3 = some .machine := rfl
  have hswitch : (Session.start h).step platform (.setPrivilege 3) =
      (.ok .done, ⟨{ h with privilege := .machine }, [.flushTlb]⟩) :=
    Session.step_of_comesTo (comesTo_bind_pure _ (comesTo_setPrivilege _ h hlevel))
  have hwrite : (Session.mk { h with privilege := .machine } [.flushTlb]).step platform
        (.writeCsr .sptbr value) =
      (.ok .done, ⟨{ h with privilege := .machine }.afterInstall .sptbr (h.xlen.truncate value),
        [.flushTlb]⟩) :=
    Session.step_of_comesTo (comesTo_bind_pure _ (comesTo_writeCsr (writeDecision_sptbr rfl) value))
  rw [Session.run_cons, hswitch, Session.run_cons, hwrite, Session.run_nil]

/-- `sptbr` takes the number of the last page as it is. -/
theorem toNat_lastPage_and_rootMask (hc : c.validate = .ok ()) (p : Privilege) :
    (c.xlen.truncate c.lastPage &&& (atReset c p).rootMask).toNat =
      2 ^ (c.effectivePhysAddrBits.toNat - Page.shift) - 1 := by
  have hlt : c.lastPage.toNat < 2 ^ (c.effectivePhysAddrBits.toNat - Page.shift) := by
    rw [Config.toNat_lastPage hc]
    exact Nat.sub_lt (Nat.two_pow_pos _) Nat.one_pos
  have hwithin : Within c.xlen.mask c.lastPage := by
    rw [Xlen.mask_eq_lowBits, within_lowBits_iff]
    exact Nat.lt_of_lt_of_le hlt (Nat.pow_le_pow_right (by omega) (Config.pageNumberBits_le hc))
  have hkept : (c.lastPage &&& (atReset c p).rootMask).toNat = c.lastPage.toNat :=
    (toNat_and_lowBits ..).trans (Nat.mod_eq_of_lt hlt)
  rw [Xlen.truncate_eq hwithin, hkept, Config.toNat_lastPage hc]

/-- The root can be the last page of the address space. -/
theorem exists_reachable_lastPage (hc : c.validate = .ok ()) :
    ∃ h, Reachable c h ∧ h.rootByte + Page.size.toNat = 2 ^ c.effectivePhysAddrBits.toNat := by
  obtain ⟨p, hofConfig, -⟩ := ofConfig_of_validate hc
  have reachable : Reachable c ({ atReset c p with privilege := .machine }.afterInstall .sptbr
      (c.xlen.truncate c.lastPage)) :=
    ⟨_, fun _ => .identity, _, hofConfig, (hart_run_writeRoot _ (atReset c p) c.lastPage).symm⟩
  refine ⟨_, reachable, ?_⟩
  -- one page above the last one the address space ends
  have hend : (c.xlen.truncate c.lastPage &&& (atReset c p).rootMask).toNat * Page.size.toNat +
      Page.size.toNat = 2 ^ c.effectivePhysAddrBits.toNat := by
    rw [toNat_lastPage_and_rootMask hc, ← Nat.succ_mul, Nat.succ_eq_add_one,
      Nat.sub_add_cancel (Nat.two_pow_pos _),
      two_pow_mul_pageSize (Config.physAddrBits_of_validate hc).1]
  exact hend

/-! ## All roots -/

theorem Reachable.rootByte_lt (hc : c.validate = .ok ()) (reachable : Reachable c h) :
    h.rootByte < 2 ^ c.effectivePhysAddrBits.toNat := by
  have hbits := (Config.physAddrBits_of_validate hc).1
  rw [← reachable.builtFrom.physAddrBits] at hbits ⊢
  exact Hart.rootByte_lt reachable.wellFormed hbits

/-- Beyond 64 bits the last page starts where no word reaches. -/
theorem not_rootFits_of_lastPage {bits : Nat} (hbits : 64 < bits)
    (hlast : h.rootByte + Page.size.toNat = 2 ^ bits) : ¬ h.RootFits := by
  rw [rootFits_iff]
  have hdouble : 2 ^ 65 ≤ 2 ^ bits := Nat.pow_le_pow_right (by omega) hbits
  have hpage : Page.size.toNat = 4096 := rfl
  omega

/-- On every hart of a valid configuration the root of the page table starts within the physical address
space.  Its address is a word on all of them exactly if that space has at most 64 bits. -/
theorem root_addressable_iff {c : Config} (hc : c.validate = .ok ()) :
    (∀ h, Reachable c h → h.rootByte < 2 ^ c.effectivePhysAddrBits.toNat) ∧
      ((∀ h, Reachable c h → h.RootFits) ↔ c.effectivePhysAddrBits.toNat ≤ 64) := by
  refine ⟨fun h reachable => reachable.rootByte_lt hc, ?_, ?_⟩
  · intro hall
    obtain ⟨h, reachable, hlast⟩ := exists_reachable_lastPage hc
    refine Nat.le_of_not_lt fun hwide => ?_
    exact not_rootFits_of_lastPage hwide hlast (hall h reachable)
  · intro hbits h reachable
    have hword : 2 ^ c.effectivePhysAddrBits.toNat ≤ 2 ^ 64 :=
      Nat.pow_le_pow_right (by omega) hbits
    exact rootFits_iff.2 (Nat.lt_of_lt_of_le (reachable.rootByte_lt hc) hword)

/-- The address space of a default hart has 50 bits. -/
theorem root_addressable_default :
    ({} : Config).validate = .ok () ∧
      ∀ h, Reachable {} h → h.rootByte < 2 ^ 50 ∧ h.RootFits := by
  obtain ⟨hspace, hfits⟩ := root_addressable_iff Config.validate_default
  refine ⟨Config.validate_default, fun h reachable => ⟨hspace h reachable, ?_⟩⟩
  exact hfits.2 (by decide) h reachable

/-- With 66 physical address bits a configuration is valid, and the root can be a page whose address is no
word. -/
theorem not_root_addressable :
    ¬ ∀ c : Config, c.validate = .ok () → ∀ h, Reachable c h →
      h.rootByte < 2 ^ c.effectivePhysAddrBits.toNat ∧ h.RootFits := by
  intro hall
  let c : Config := { physAddrBits := some 66 }
  have hvalid : c.validate = .ok () := c.validate_eq_ok_iff.2 (by decide +kernel)
  obtain ⟨h, reachable, hlast⟩ := exists_reachable_lastPage hvalid
  exact not_rootFits_of_lastPage (by decide) hlast (hall c hvalid h reachable).2

end Hart
end PrivilegedHart
