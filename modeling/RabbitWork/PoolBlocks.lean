import Mathlib.Data.List.Pairwise
import Mathlib.Tactic

/-!
# Blocks of a pool

Decoded frames live in the pools of `amqp_mem.c`.  `amqp_pool_alloc` cuts
blocks off the current page, takes the next page when one does not fit, and
allocates large blocks one by one.  `recycle_amqp_pool` frees the large blocks
and starts again with the first page.

`calloc` and `realloc` are taken to succeed, so a page has fewer than `2 ^ 63`
bytes and `alloc_used + amount` does not wrap.
-/

namespace RabbitWork
namespace PoolBlocks

/-- A page or a large block, by its number in its list. -/
inductive Home where
  | page (number : ℕ)
  | large (number : ℕ)
  deriving DecidableEq, Repr

/-- The memory a call has returned. -/
structure Block where
  home : Home
  offset : ℕ
  length : ℕ
  deriving DecidableEq, Repr

/-- `amqp_pool_t`; of the lists of blocks only the lengths matter. -/
structure Pool where
  pagesize : ℕ
  pages : ℕ
  largeBlocks : ℕ
  nextPage : ℕ
  allocBlock : Option ℕ
  allocUsed : ℕ
  deriving DecidableEq, Repr

def initAmqpPool (pagesize : ℕ) : Pool where
  pagesize := if pagesize = 0 then 4096 else pagesize
  pages := 0
  largeBlocks := 0
  nextPage := 0
  allocBlock := none
  allocUsed := 0

def recycleAmqpPool (pool : Pool) : Pool :=
  { pool with
    largeBlocks := 0
    nextPage := 0
    allocBlock := none
    allocUsed := 0 }

/-- `(amount + 7) & (~7)` as a `size_t`. -/
def roundedAmount (amount : ℕ) : ℕ := (amount + 7) % 2 ^ 64 / 8 * 8

/-- The end of `amqp_pool_alloc`, which starts on another page. -/
def startPage (pool : Pool) (amount : ℕ) : Block × Pool :=
  if pool.pages ≤ pool.nextPage then
    (⟨.page pool.pages, 0, amount⟩,
      { pool with
        pages := pool.pages + 1
        nextPage := pool.pages + 1
        allocBlock := some pool.pages
        allocUsed := amount })
  else
    (⟨.page pool.nextPage, 0, amount⟩,
      { pool with
        nextPage := pool.nextPage + 1
        allocBlock := some pool.nextPage
        allocUsed := amount })

/-- `amqp_pool_alloc`; no block for no bytes. -/
def amqpPoolAlloc (pool : Pool) (amount : ℕ) : Option Block × Pool :=
  if amount = 0 then
    (none, pool)
  else
    let amount := roundedAmount amount
    if pool.pagesize < amount then
      (some ⟨.large pool.largeBlocks, 0, amount⟩,
        { pool with largeBlocks := pool.largeBlocks + 1 })
    else
      match pool.allocBlock with
      | some page =>
          if pool.allocUsed + amount ≤ pool.pagesize then
            (some ⟨.page page, pool.allocUsed, amount⟩,
              { pool with allocUsed := pool.allocUsed + amount })
          else
            Prod.map some id (startPage pool amount)
      | none => Prod.map some id (startPage pool amount)

/-! ## Runs -/

inductive PoolCall where
  | alloc (amount : ℕ)
  | recycle
  deriving DecidableEq, Repr

/-- The pool, and the blocks in use with the amounts asked for. -/
structure PoolState where
  pool : Pool
  inUse : List (ℕ × Block)
  deriving DecidableEq, Repr

/-- Recycling ends the use of all blocks. -/
def poolStep (state : PoolState) : PoolCall → PoolState
  | .recycle => ⟨recycleAmqpPool state.pool, []⟩
  | .alloc amount =>
      match amqpPoolAlloc state.pool amount with
      | (none, pool) => ⟨pool, state.inUse⟩
      | (some block, pool) => ⟨pool, (amount, block) :: state.inUse⟩

def poolRun (state : PoolState) (calls : List PoolCall) : PoolState :=
  calls.foldl poolStep state

/-! ## Blocks do not overlap -/

/-- No byte belongs to both. -/
def Block.Apart (left right : Block) : Prop :=
  left.home ≠ right.home ∨
    left.offset + left.length ≤ right.offset ∨
      right.offset + right.length ≤ left.offset

/-- The block lies within memory that the pool has allocated. -/
def Block.Within (block : Block) (pool : Pool) : Prop :=
  match block.home with
  | .page number =>
      number < pool.pages ∧ block.offset + block.length ≤ pool.pagesize
  | .large number => number < pool.largeBlocks ∧ block.offset = 0

/-- What the pool does not give out any more. -/
def Block.Taken (block : Block) (pool : Pool) : Prop :=
  match block.home with
  | .page number =>
      number < pool.nextPage ∧
        (pool.allocBlock = some number →
          block.offset + block.length ≤ pool.allocUsed)
  | .large number => number < pool.largeBlocks

structure PoolInvariant (state : PoolState) : Prop where
  pages : state.pool.nextPage ≤ state.pool.pages
  unused : state.pool.allocBlock = none → state.pool.nextPage = 0
  current : ∀ page, state.pool.allocBlock = some page →
    page + 1 = state.pool.nextPage ∧ state.pool.allocUsed ≤ state.pool.pagesize
  within : ∀ use ∈ state.inUse, use.2.Within state.pool
  taken : ∀ use ∈ state.inUse, use.2.Taken state.pool
  apart : state.inUse.Pairwise fun left right => left.2.Apart right.2
  aligned : 8 ∣ state.pool.allocUsed ∧ ∀ use ∈ state.inUse, 8 ∣ use.2.offset
  lengths : ∀ use ∈ state.inUse, use.2.length = roundedAmount use.1

theorem roundedAmount_dvd (amount : ℕ) : 8 ∣ roundedAmount amount :=
  Dvd.intro_left _ rfl

theorem roundedAmount_ge {amount : ℕ} (hamount : amount ≤ 2 ^ 64 - 8) :
    amount ≤ roundedAmount amount := by
  unfold roundedAmount
  omega

theorem roundedAmount_wraps
    {amount : ℕ} (hlow : 2 ^ 64 - 8 < amount) (hhigh : amount < 2 ^ 64) :
    roundedAmount amount = 0 := by
  unfold roundedAmount
  omega

theorem poolInvariant_recycle (pool : Pool) :
    PoolInvariant ⟨recycleAmqpPool pool, []⟩ := by
  constructor
  · exact Nat.zero_le _
  · intro _
    rfl
  · intro page hpage
    cases hpage
  · intro use huse
    cases huse
  · intro use huse
    cases huse
  · exact List.Pairwise.nil
  · exact ⟨Nat.dvd_zero 8, fun use huse => by cases huse⟩
  · intro use huse
    cases huse

theorem poolInvariant_initial (pagesize : ℕ) :
    PoolInvariant ⟨initAmqpPool pagesize, []⟩ := by
  have hrecycled :
      recycleAmqpPool (initAmqpPool pagesize) = initAmqpPool pagesize := rfl
  rw [← hrecycled]
  exact poolInvariant_recycle (initAmqpPool pagesize)

/-- What a call has to do to the pool so that a new block can be given out. -/
theorem PoolInvariant.give
    {state : PoolState} {pool : Pool} {block : Block} {amount : ℕ}
    (hinvariant : PoolInvariant state)
    (hpages : pool.nextPage ≤ pool.pages)
    (hunused : pool.allocBlock = none → pool.nextPage = 0)
    (hcurrent : ∀ page, pool.allocBlock = some page →
      page + 1 = pool.nextPage ∧ pool.allocUsed ≤ pool.pagesize)
    (hwithin : ∀ other : Block, other.Within state.pool → other.Within pool)
    (htaken : ∀ other : Block, other.Taken state.pool → other.Taken pool)
    (hblock : block.Within pool ∧ block.Taken pool)
    (hapart : ∀ other : Block, other.Taken state.pool → block.Apart other)
    (haligned : 8 ∣ pool.allocUsed ∧ 8 ∣ block.offset)
    (hlength : block.length = roundedAmount amount) :
    PoolInvariant ⟨pool, (amount, block) :: state.inUse⟩ := by
  constructor
  · exact hpages
  · exact hunused
  · exact hcurrent
  · rw [List.forall_mem_cons]
    exact ⟨hblock.1, fun use huse => hwithin _ (hinvariant.within use huse)⟩
  · rw [List.forall_mem_cons]
    exact ⟨hblock.2, fun use huse => htaken _ (hinvariant.taken use huse)⟩
  · apply List.Pairwise.cons
    · intro use huse
      exact hapart _ (hinvariant.taken use huse)
    · exact hinvariant.apart
  · rw [List.forall_mem_cons]
    exact ⟨haligned.1, haligned.2, hinvariant.aligned.2⟩
  · rw [List.forall_mem_cons]
    exact ⟨hlength, hinvariant.lengths⟩

section Alloc

variable {state : PoolState} {amount : ℕ}

theorem poolInvariant_large
    (hinvariant : PoolInvariant state) :
    PoolInvariant
      ⟨{ state.pool with largeBlocks := state.pool.largeBlocks + 1 },
        (amount, ⟨.large state.pool.largeBlocks, 0, roundedAmount amount⟩) ::
          state.inUse⟩ := by
  apply hinvariant.give
  · exact hinvariant.pages
  · exact hinvariant.unused
  · exact hinvariant.current
  · rintro ⟨home, offset, length⟩ hother
    cases home with
    | page => exact hother
    | large number => exact ⟨Nat.lt_succ_of_lt hother.1, hother.2⟩
  · rintro ⟨home, offset, length⟩ hother
    cases home with
    | page => exact hother
    | large number => exact Nat.lt_succ_of_lt hother
  · exact ⟨⟨Nat.lt_succ_self _, rfl⟩, Nat.lt_succ_self _⟩
  · rintro ⟨home, offset, length⟩ hother
    left
    intro hsame
    dsimp only at hsame
    rw [← hsame] at hother
    exact Nat.lt_irrefl _ hother
  · exact ⟨hinvariant.aligned.1, Nat.dvd_zero 8⟩
  · rfl

/-- The block is cut off the current page. -/
theorem poolInvariant_current
    {page : ℕ} (hinvariant : PoolInvariant state)
    (hpage : state.pool.allocBlock = some page)
    (hfits :
      state.pool.allocUsed + roundedAmount amount ≤ state.pool.pagesize) :
    PoolInvariant
      ⟨{ state.pool with
          allocUsed := state.pool.allocUsed + roundedAmount amount },
        (amount,
          ⟨.page page, state.pool.allocUsed, roundedAmount amount⟩) ::
          state.inUse⟩ := by
  have hnext := (hinvariant.current page hpage).1
  have hpages := hinvariant.pages
  apply hinvariant.give
  · exact hpages
  · exact hinvariant.unused
  · intro other hother
    exact ⟨(hinvariant.current other hother).1, hfits⟩
  · rintro ⟨home, offset, length⟩ hother
    cases home with
    | page => exact hother
    | large => exact hother
  · rintro ⟨home, offset, length⟩ hother
    cases home with
    | page number =>
        refine ⟨hother.1, ?_⟩
        intro hsame
        have hend := hother.2 hsame
        dsimp only at hend ⊢
        omega
    | large => exact hother
  · refine ⟨⟨?_, hfits⟩, ?_, ?_⟩
    · dsimp only
      omega
    · dsimp only
      omega
    · intro _
      exact le_rfl
  · rintro ⟨home, offset, length⟩ hother
    cases home with
    | page number =>
        by_cases hsame : number = page
        · right
          right
          rw [hsame] at hother
          exact hother.2 hpage
        · left
          intro heq
          rw [Home.page.injEq] at heq
          exact hsame heq.symm
    | large =>
        left
        intro heq
        cases heq
  · exact ⟨Nat.dvd_add hinvariant.aligned.1 (roundedAmount_dvd amount),
      hinvariant.aligned.1⟩
  · rfl

/-- The block starts a page that nothing in use lies on. -/
theorem poolInvariant_startPage
    (hinvariant : PoolInvariant state)
    (hfits : roundedAmount amount ≤ state.pool.pagesize) :
    PoolInvariant
      ⟨(startPage state.pool (roundedAmount amount)).2,
        (amount, (startPage state.pool (roundedAmount amount)).1) ::
          state.inUse⟩ := by
  have hpages := hinvariant.pages
  have hstart :
      ∃ pages, state.pool.nextPage < pages ∧ state.pool.pages ≤ pages ∧
        startPage state.pool (roundedAmount amount) =
          (⟨.page state.pool.nextPage, 0, roundedAmount amount⟩,
            { state.pool with
              pages := pages
              nextPage := state.pool.nextPage + 1
              allocBlock := some state.pool.nextPage
              allocUsed := roundedAmount amount }) := by
    by_cases hlast : state.pool.pages ≤ state.pool.nextPage
    · have hsame : state.pool.pages = state.pool.nextPage := by omega
      refine ⟨state.pool.pages + 1, by omega, by omega, ?_⟩
      rw [startPage, if_pos hlast, hsame]
    · refine ⟨state.pool.pages, by omega, le_rfl, ?_⟩
      rw [startPage, if_neg hlast]
  obtain ⟨pages, hnew, hmore, hrun⟩ := hstart
  rw [hrun]
  apply hinvariant.give
  · exact hnew
  · intro hnone
    cases hnone
  · intro page hpage
    rw [Option.some.injEq] at hpage
    rw [← hpage]
    exact ⟨rfl, hfits⟩
  · rintro ⟨home, offset, length⟩ hother
    cases home with
    | page => exact ⟨hother.1.trans_le hmore, hother.2⟩
    | large => exact hother
  · rintro ⟨home, offset, length⟩ hother
    cases home with
    | page number =>
        refine ⟨Nat.lt_succ_of_lt hother.1, ?_⟩
        intro hsame
        rw [Option.some.injEq] at hsame
        rw [← hsame] at hother
        exact (Nat.lt_irrefl _ hother.1).elim
    | large => exact hother
  · refine ⟨⟨hnew, ?_⟩, Nat.lt_succ_self _, ?_⟩
    · rw [Nat.zero_add]
      exact hfits
    · intro _
      rw [Nat.zero_add]
  · rintro ⟨home, offset, length⟩ hother
    left
    intro hsame
    dsimp only at hsame
    rw [← hsame] at hother
    exact Nat.lt_irrefl _ hother.1
  · exact ⟨roundedAmount_dvd amount, Nat.dvd_zero 8⟩
  · rfl

end Alloc

theorem poolInvariant_step
    {state : PoolState} (hinvariant : PoolInvariant state) (call : PoolCall) :
    PoolInvariant (poolStep state call) := by
  cases call with
  | recycle => exact poolInvariant_recycle state.pool
  | alloc amount =>
      by_cases hzero : amount = 0
      · simp only [poolStep, amqpPoolAlloc, if_pos hzero]
        exact hinvariant
      · by_cases hlarge : state.pool.pagesize < roundedAmount amount
        · simp only [poolStep, amqpPoolAlloc, if_neg hzero, if_pos hlarge]
          exact poolInvariant_large hinvariant
        · have hstart :=
            poolInvariant_startPage hinvariant (not_lt.mp hlarge)
          cases hblock : state.pool.allocBlock with
          | none =>
              simp only [poolStep, amqpPoolAlloc, if_neg hzero, if_neg hlarge,
                hblock, Prod.map, id]
              exact hstart
          | some page =>
              by_cases hfits :
                  state.pool.allocUsed + roundedAmount amount ≤
                    state.pool.pagesize
              · simp only [poolStep, amqpPoolAlloc, if_neg hzero,
                  if_neg hlarge, hblock, if_pos hfits]
                rw [← hblock]
                exact poolInvariant_current hinvariant hblock hfits
              · simp only [poolStep, amqpPoolAlloc, if_neg hzero,
                  if_neg hlarge, hblock, if_neg hfits, Prod.map, id]
                exact hstart

theorem poolInvariant_run
    (calls : List PoolCall) {state : PoolState}
    (hinvariant : PoolInvariant state) :
    PoolInvariant (poolRun state calls) := by
  induction calls generalizing state with
  | nil => exact hinvariant
  | cons call calls ih => exact ih (poolInvariant_step hinvariant call)

/-- Over any sequence of allocations and recyclings no two blocks in use
overlap, and each lies within the memory of the pool, begins at a multiple of
eight bytes and has the length asked for; only an amount that wraps when it is
rounded is given a block without any bytes.  The assertion on `alloc_used`
never fails. -/
theorem blocks_in_use_apart (pagesize : ℕ) (calls : List PoolCall) :
    let state := poolRun ⟨initAmqpPool pagesize, []⟩ calls
    (state.inUse.Pairwise fun left right => left.2.Apart right.2) ∧
      (∀ use ∈ state.inUse,
        use.2.Within state.pool ∧ 8 ∣ use.2.offset ∧
          (use.1 ≤ 2 ^ 64 - 8 → use.1 ≤ use.2.length) ∧
          (2 ^ 64 - 8 < use.1 → use.1 < 2 ^ 64 → use.2.length = 0)) ∧
      ∀ page, state.pool.allocBlock = some page →
        state.pool.allocUsed ≤ state.pool.pagesize := by
  intro state
  have hinvariant : PoolInvariant state :=
    poolInvariant_run calls (poolInvariant_initial pagesize)
  refine ⟨hinvariant.apart, ?_, ?_⟩
  · intro use huse
    have hlength := hinvariant.lengths use huse
    refine ⟨hinvariant.within use huse, hinvariant.aligned.2 use huse, ?_, ?_⟩
    · intro hamount
      rw [hlength]
      exact roundedAmount_ge hamount
    · intro hlow hhigh
      rw [hlength]
      exact roundedAmount_wraps hlow hhigh
  · intro page hpage
    exact (hinvariant.current page hpage).2

/-- The second block does not fit on the first page, which is used again after
the recycling. -/
example :
    (poolRun ⟨initAmqpPool 0, []⟩
        [.alloc 10, .alloc 4090, .recycle, .alloc 3]).inUse =
      [(3, ⟨.page 0, 0, 8⟩)] := by
  decide

end PoolBlocks
end RabbitWork
