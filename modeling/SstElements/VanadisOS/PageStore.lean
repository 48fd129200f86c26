import SstElements.Library.OrderedContainer
import SstElements.Library.ReferenceCount
import SstElements.VanadisOS.PhysMem

/-!
# Pages

A page object holds a physical page until its last reference goes.
-/

namespace SstElements.VanadisOS

open Library Function Option

/-- The destructor of a page is called when its count is zero. -/
structure Page where
  ppn : Nat
  refCnt : Nat
  refCnt_pos : 0 < refCnt

namespace Page

def create (ppn : Nat) : Page where
  ppn := ppn
  refCnt := 1
  refCnt_pos := Nat.one_pos

def incRefCnt (page : Page) : Page where
  ppn := page.ppn
  refCnt := page.refCnt + 1
  refCnt_pos := Nat.succ_pos _

/-- `none` is a count of zero. -/
def decRefCnt (page : Page) : Option Page :=
  if h : 1 < page.refCnt then
    some { page with refCnt := page.refCnt - 1, refCnt_pos := Nat.sub_pos_of_lt h }
  else
    none

end Page

/-- Page objects are known by number.  The flag tells that a deleted one was referred to. -/
structure PageStore where
  physMem : PhysMemManager
  pages : OrderedMap Nat Page
  created : Nat
  dangling : Bool

namespace PageStore

/-- A new page object; `none` is the fatal error that there is no physical memory. -/
def allocPage (store : PageStore) : Option (Nat × PageStore) :=
  store.physMem.allocPage.map fun (ppn, physMem) =>
    (store.created,
      { store with
        physMem := physMem
        pages := store.pages.insert store.created (.create ppn)
        created := store.created + 1 })

def incRefCnt (store : PageStore) (id : Nat) : PageStore :=
  match store.pages.find? id with
  | none => { store with dangling := true }
  | some page => { store with pages := store.pages.insert id page.incRefCnt }

/-- A page whose count is zero is deleted, and its physical page is returned. -/
def decRefCnt (store : PageStore) (id : Nat) : PageStore :=
  match store.pages.find? id with
  | none => { store with dangling := true }
  | some page =>
    match page.decRefCnt with
    | some page' => { store with pages := store.pages.insert id page' }
    | none =>
      { store with
        physMem := store.physMem.freePage page.ppn
        pages := store.pages.erase id }

def count (store : PageStore) (id : Nat) : Option Nat := (store.pages.find? id).map Page.refCnt

/-- The physical page of a page object that exists. -/
def ppnOf (store : PageStore) (id : Nat) : Option Nat := (store.pages.find? id).map Page.ppn

/-- The counts are those of the references, and each page object has its own physical page. -/
structure Accounted (store : PageStore) (uses : Nat → Nat) : Prop where
  counted : Counted store.count uses
  taken : ∀ ppn, store.physMem.Taken ppn ↔ ∃ id, store.ppnOf id = some ppn
  distinct : ∀ id id' ppn, store.ppnOf id = some ppn → store.ppnOf id' = some ppn → id' = id
  known : ∀ id, (store.ppnOf id).isSome → id < store.created
  alive : store.dangling = false

section Accounted

variable {store store' : PageStore} {uses uses' : Nat → Nat} {id : Nat}

theorem find?_ppnOf {page : Page} (h : store.pages.find? id = some page) :
    store.ppnOf id = some page.ppn := by
  rw [ppnOf, h]
  rfl

/-- The counts after the page object of one number has changed. -/
theorem count_eq_update {refCnt : Option Nat}
    (hid : (store'.pages.find? id).map Page.refCnt = refCnt)
    (hother : ∀ id' ≠ id, store'.pages.find? id' = store.pages.find? id') :
    store'.count = update store.count id refCnt := by
  funext id'
  unfold count
  by_cases hsame : id' = id
  · rw [hsame, update_self, hid]
  · rw [update_of_ne hsame, hother id' hsame]

section

variable (h : store.Accounted uses)
include h

theorem Accounted.exists_page (huse : uses id ≠ 0) :
    ∃ page, store.pages.find? id = some page ∧ page.refCnt = uses id := by
  have hcount := h.counted id
  rw [if_neg huse] at hcount
  exact map_eq_some_iff.1 hcount

theorem Accounted.uses_eq_zero_of_created_le (hnew : store.created ≤ id) : uses id = 0 := by
  by_contra huse
  obtain ⟨page, hpage, -⟩ := h.exists_page huse
  have hlt := h.known id (by rw [find?_ppnOf hpage]; rfl)
  omega

theorem Accounted.allocPage (halloc : store.allocPage = some (id, store'))
    (huses : ∀ y, uses' y = uses y + if id = y then 1 else 0) :
    store'.Accounted uses' ∧ id = store.created ∧ uses id = 0 ∧
      store'.physMem.frames = store.physMem.frames ∧
      ∀ id', id' ≠ id → store'.pages.find? id' = store.pages.find? id' := by
  obtain ⟨⟨ppn, physMem⟩, hphys, heq⟩ := map_eq_some_iff.1 halloc
  cases heq
  obtain ⟨hfree, hframes, htaken⟩ := PhysMemManager.allocPage_spec hphys
  have hzero := h.uses_eq_zero_of_created_le le_rfl
  have hppn (id' : Nat) : ppnOf { store with
      physMem := physMem
      pages := store.pages.insert store.created (.create ppn)
      created := store.created + 1 } id' =
      if id' = store.created then some ppn else store.ppnOf id' := by
    unfold ppnOf
    rw [OrderedMap.find?_insert]
    split <;> rfl
  refine ⟨⟨?_, ?_, ?_, ?_, h.alive⟩, rfl, hzero, hframes, fun id' hne =>
    OrderedMap.find?_insert_of_ne _ _ hne⟩
  · have hnew := h.counted.acquire (h.counted.eq_none_iff.2 hzero) huses
    rwa [count_eq_update (by rw [OrderedMap.find?_insert_self, map_some])
      fun _ => OrderedMap.find?_insert_of_ne _ _]
  · intro ppn'
    rw [htaken, h.taken]
    constructor
    · rintro (rfl | ⟨id', hid⟩)
      · exact ⟨store.created, by rw [hppn, if_pos rfl]⟩
      · refine ⟨id', ?_⟩
        have hlt := h.known id' (by rw [hid]; rfl)
        rw [hppn, if_neg hlt.ne]
        exact hid
    · rintro ⟨id', hid⟩
      rw [hppn] at hid
      split at hid
      case isTrue => exact .inl (some.inj hid).symm
      case isFalse => exact .inr ⟨id', hid⟩
  · intro id₁ id₂ ppn' h₁ h₂
    rw [hppn] at h₁ h₂
    split at h₁ <;> split at h₂
    case isTrue.isTrue heq₁ heq₂ => exact heq₂.trans heq₁.symm
    case isTrue.isFalse =>
      cases h₁
      exact absurd ((h.taken _).2 ⟨_, h₂⟩) hfree
    case isFalse.isTrue =>
      cases h₂
      exact absurd ((h.taken _).2 ⟨_, h₁⟩) hfree
    case isFalse.isFalse => exact h.distinct _ _ _ h₁ h₂
  · intro id' hsome
    rw [hppn] at hsome
    dsimp only
    split at hsome
    case isTrue heq => omega
    case isFalse => exact Nat.lt_succ_of_lt (h.known id' hsome)

/-- A page object may change its count, but not its physical page. -/
theorem Accounted.insert {page : Page} (page' : Page) (hpage : store.pages.find? id = some page)
    (hsame : page'.ppn = page.ppn)
    (hcounted : Counted (update store.count id (some page'.refCnt)) uses') :
    Accounted { store with pages := store.pages.insert id page' } uses' ∧
      ppnOf { store with pages := store.pages.insert id page' } = store.ppnOf := by
  have hppn : ppnOf { store with pages := store.pages.insert id page' } = store.ppnOf := by
    funext id'
    unfold ppnOf
    rw [OrderedMap.find?_insert]
    split
    case isTrue heq => rw [heq, hpage, map_some, map_some, hsame]
    case isFalse => rfl
  refine ⟨⟨?_, ?_, ?_, ?_, h.alive⟩, hppn⟩
  · rwa [count_eq_update (by rw [OrderedMap.find?_insert_self, map_some])
      fun _ => OrderedMap.find?_insert_of_ne _ _]
  all_goals rw [hppn]
  exacts [h.taken, h.distinct, h.known]

/-- A page that exists has one more reference. -/
theorem Accounted.incRefCnt (hused : uses id ≠ 0)
    (huses : ∀ y, uses' y = uses y + if id = y then 1 else 0) :
    (store.incRefCnt id).Accounted uses' ∧ (store.incRefCnt id).physMem = store.physMem ∧
      (store.incRefCnt id).ppnOf = store.ppnOf := by
  obtain ⟨page, hpage, -⟩ := h.exists_page hused
  have hretained := h.counted.retain hused huses
  rw [retain, count, hpage] at hretained
  obtain ⟨haccounted, hppn⟩ := h.insert page.incRefCnt hpage rfl hretained
  rw [PageStore.incRefCnt, hpage]
  exact ⟨haccounted, rfl, hppn⟩

/-- A reference goes; a page that keeps one keeps its physical page. -/
theorem Accounted.decRefCnt (huses : ∀ y, uses y = uses' y + if id = y then 1 else 0) :
    (store.decRefCnt id).Accounted uses' ∧
      (store.decRefCnt id).physMem.frames = store.physMem.frames ∧
      ∀ id', uses' id' ≠ 0 → (store.decRefCnt id).ppnOf id' = store.ppnOf id' := by
  have huse : uses id = uses' id + 1 := by rw [huses, if_pos rfl]
  have hused : uses id ≠ 0 := by omega
  obtain ⟨page, hpage, hcnt⟩ := h.exists_page hused
  have hreleased := h.counted.release huses
  rw [release, count, hpage] at hreleased
  change Counted (update _ _ (if _ then _ else _)) _ at hreleased
  unfold PageStore.decRefCnt Page.decRefCnt
  rw [hpage]
  dsimp only
  split
  case h_1 page' hdec =>
    split at hdec
    case isFalse => cases hdec
    case isTrue hlt =>
      cases hdec
      rw [if_pos hlt] at hreleased
      obtain ⟨haccounted, hppn⟩ := h.insert
        ⟨page.ppn, page.refCnt - 1, Nat.sub_pos_of_lt hlt⟩ hpage rfl hreleased
      exact ⟨haccounted, rfl, fun id' _ => congrFun hppn id'⟩
  case h_2 hdec =>
    split at hdec
    case isTrue => cases hdec
    case isFalse hlast =>
      have hppn (id' : Nat) : ppnOf { store with
          physMem := store.physMem.freePage page.ppn
          pages := store.pages.erase id } id' = if id' = id then none else store.ppnOf id' := by
        unfold ppnOf
        rw [OrderedMap.find?_erase]
        split <;> rfl
      have hown := find?_ppnOf hpage
      refine ⟨⟨?_, fun ppn' => ?_, fun id₁ id₂ ppn' h₁ h₂ => ?_, fun id' hsome => ?_, h.alive⟩,
        PhysMemManager.frames_freePage _ _, fun id' hused => ?_⟩
      · rw [if_neg hlast] at hreleased
        rwa [count_eq_update (by rw [OrderedMap.find?_erase_self, map_none])
          fun _ => OrderedMap.find?_erase_of_ne _]
      · refine (PhysMemManager.taken_freePage ((h.taken _).2 ⟨id, hown⟩) ppn').trans ?_
        rw [h.taken]
        constructor
        · rintro ⟨hne, id', hid⟩
          refine ⟨id', ?_⟩
          rw [hppn, if_neg]
          · exact hid
          · rintro rfl
            exact hne (some.inj (hid.symm.trans hown))
        · rintro ⟨id', hid⟩
          rw [hppn] at hid
          split at hid
          case isTrue => cases hid
          case isFalse hne =>
            refine ⟨?_, id', hid⟩
            rintro rfl
            exact hne (h.distinct id id' _ hown hid)
      · rw [hppn] at h₁ h₂
        split at h₁
        case isTrue => cases h₁
        case isFalse =>
          split at h₂
          case isTrue => cases h₂
          case isFalse => exact h.distinct _ _ _ h₁ h₂
      · rw [hppn] at hsome
        split at hsome
        case isTrue => cases hsome
        case isFalse => exact h.known id' hsome
      · rw [hppn, if_neg]
        rintro rfl
        omega

theorem Accounted.incRefCnts {ids : List Nat} (hused : ∀ id ∈ ids, uses id ≠ 0)
    (huses : ∀ y, uses' y = uses y + ids.count y) :
    (ids.foldl PageStore.incRefCnt store).Accounted uses' ∧
      (ids.foldl PageStore.incRefCnt store).physMem = store.physMem ∧
      (ids.foldl PageStore.incRefCnt store).ppnOf = store.ppnOf := by
  induction ids generalizing store uses with
  | nil =>
    have heq : uses' = uses := funext fun y => by rw [huses, List.count_nil, add_zero]
    exact ⟨heq ▸ h, rfl, rfl⟩
  | cons id rest ih =>
    obtain ⟨hnew, hphys, hppn⟩ :=
      h.incRefCnt (hused id List.mem_cons_self) (fun _ => rfl)
    obtain ⟨hall, hphys', hppn'⟩ := ih hnew
      (fun id' hmem => by
        have hne := hused id' (List.mem_cons_of_mem _ hmem)
        omega)
      (fun y => by
        simp only [huses, List.count_cons, beq_iff_eq]
        omega)
    exact ⟨hall, hphys'.trans hphys, hppn'.trans hppn⟩

theorem Accounted.decRefCnts {ids : List Nat} (huses : ∀ y, uses y = uses' y + ids.count y) :
    (ids.foldl PageStore.decRefCnt store).Accounted uses' ∧
      (ids.foldl PageStore.decRefCnt store).physMem.frames = store.physMem.frames ∧
      ∀ id, uses' id ≠ 0 → (ids.foldl PageStore.decRefCnt store).ppnOf id = store.ppnOf id := by
  induction ids generalizing store uses with
  | nil =>
    have heq : uses = uses' := funext fun y => by rw [huses, List.count_nil, add_zero]
    exact ⟨heq ▸ h, rfl, fun _ _ => rfl⟩
  | cons id rest ih =>
    obtain ⟨hnew, hframes, hppn⟩ :=
      @Accounted.decRefCnt store uses (fun y => uses' y + rest.count y) id h fun y => by
        simp only [huses, List.count_cons, beq_iff_eq]
        omega
    obtain ⟨hall, hframes', hppn'⟩ := ih hnew fun _ => rfl
    refine ⟨hall, hframes'.trans hframes, fun id' hused => ?_⟩
    exact (hppn' id' hused).trans (hppn id' (by omega))

end

end Accounted

end PageStore

end SstElements.VanadisOS
