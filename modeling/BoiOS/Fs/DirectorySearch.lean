import BoiOS.Fs.FatFrame

/-! The search of a directory, record by record: what the records before a match, the match itself
and the records behind it do to the answer. -/
namespace BoiOS
open Library.StateRun

def recordAddress (items i : Nat) : Nat := u32 ((items : Int) + (sizeofFatDirectoryItem * i : Nat))

def RecordMatches (m : Memory) (items fileName i : Nat) : Prop :=
  istrncmp (fat16GetFullRelativeFilename m (recordAddress items i)) (m.bytesAt fileName 128) 128 = 0

instance (m : Memory) (items fileName i : Nat) : Decidable (RecordMatches m items fileName i) :=
  inferInstanceAs (Decidable (_ = _))

section Loop
variable {items fileName count i fItem : Nat} {k : Kernel}

theorem fat16FindItemInDirectoryLoop_match (h : RecordMatches k.memory items fileName i) :
    fat16FindItemInDirectoryLoop items fileName (count + 1) i fItem k =
      (fat16NewFatItemOrDirectoryItem (recordAddress items i) >>= fun fItem =>
        fat16FindItemInDirectoryLoop items fileName count (i + 1) fItem) k := by
  rw [fat16FindItemInDirectoryLoop, bind_of_ok (get_apply k)]
  exact congrFun (if_pos h) k

theorem fat16FindItemInDirectoryLoop_skip (h : ¬ RecordMatches k.memory items fileName i) :
    fat16FindItemInDirectoryLoop items fileName (count + 1) i fItem k =
      fat16FindItemInDirectoryLoop items fileName count (i + 1) fItem k := by
  rw [fat16FindItemInDirectoryLoop, bind_of_ok (get_apply k)]
  exact congrFun (if_neg h) k

theorem fat16FindItemInDirectoryLoop_none
    (h : ∀ j, i ≤ j → j < i + count → ¬ RecordMatches k.memory items fileName j) :
    fat16FindItemInDirectoryLoop items fileName count i fItem k = .ok (fItem, k) := by
  induction count generalizing i with
  | zero => rfl
  | succ count ih =>
    rw [fat16FindItemInDirectoryLoop_skip (h i le_rfl (by omega))]
    exact ih fun j hj hj' => h j (by omega) (by omega)

theorem fat16FindItemInDirectoryLoop_add (first : Nat) : ∀ (i fItem : Nat) (k : Kernel),
    fat16FindItemInDirectoryLoop items fileName (first + count) i fItem k =
      (fat16FindItemInDirectoryLoop items fileName first i fItem >>= fun fItem =>
        fat16FindItemInDirectoryLoop items fileName count (i + first) fItem) k := by
  induction first with
  | zero =>
    intro i fItem k
    rw [Nat.zero_add]
    rfl
  | succ first ih =>
    intro i fItem k
    rw [Nat.succ_add, bind_apply]
    by_cases hmatch : RecordMatches k.memory items fileName i
    · rw [fat16FindItemInDirectoryLoop_match hmatch, fat16FindItemInDirectoryLoop_match hmatch,
        bind_apply, bind_apply]
      cases fat16NewFatItemOrDirectoryItem (recordAddress items i) k with
      | error e => rfl
      | ok r =>
        dsimp only [Except.bind]
        rw [ih, bind_apply, show i + 1 + first = i + (first + 1) by omega]
        rfl
    · rw [fat16FindItemInDirectoryLoop_skip hmatch, fat16FindItemInDirectoryLoop_skip hmatch, ih,
        bind_apply, show i + 1 + first = i + (first + 1) by omega]

end Loop

/-- What a search answers is the item of the last record that matches. -/
theorem fat16FindItemInDirectory_last {d : FatDirectory} {fileName j fItem : Nat} {k k₁ k' : Kernel}
    {before : Nat} (hj : j < d.totalItems.toNat)
    (hbefore : fat16FindItemInDirectoryLoop d.item fileName j 0 0 k = .ok (before, k₁))
    (hmatch : RecordMatches k₁.memory d.item fileName j)
    (hnew : fat16NewFatItemOrDirectoryItem (recordAddress d.item j) k₁ = .ok (fItem, k'))
    (hlast : ∀ l, j < l → l < d.totalItems.toNat → ¬ RecordMatches k'.memory d.item fileName l) :
    fat16FindItemInDirectory d fileName k = .ok (fItem, k') := by
  obtain ⟨behind, hcount⟩ := Nat.exists_eq_add_of_lt hj
  unfold fat16FindItemInDirectory
  rw [hcount, Nat.add_assoc, fat16FindItemInDirectoryLoop_add, bind_of_ok hbefore, Nat.zero_add,
    fat16FindItemInDirectoryLoop_match hmatch, bind_of_ok hnew]
  exact fat16FindItemInDirectoryLoop_none fun l hl hl' => hlast l (by omega) (by omega)

end BoiOS
