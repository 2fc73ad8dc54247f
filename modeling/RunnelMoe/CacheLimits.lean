import RunnelMoe.PageSpecs

/-! Cache limits and their validation. The checks run in the order of the source
and report the first field that fails. An accepted configuration is characterised
once, so later modules never unfold the checks again. -/
namespace RunnelMoe.CacheLimits
open StoreErrors Words PageSpecs

structure CacheConfig where
  pagePoolCapacity : Nat
  maxPageBytes : Nat
  maxInflightBytes : Nat
  maxEntries : Nat
  maxLoads : Nat
  maxWaiters : Nat
  maxWaitersPerPage : Nat
  maxLeases : Nat
  traceCapacity : Nat
  poolFits : pagePoolCapacity < modulus
  deriving Repr

def maxEntriesCeiling : Nat := 1048576
def maxLoadsCeiling : Nat := 4096
def maxWaitersCeiling : Nat := 1048576
def maxWaitersPerPageCeiling : Nat := 65536
def maxLeasesCeiling : Nat := 1048576
def traceSinkMaxCapacity : Nat := 65536

def requirePositive : List (String × Nat) → Except StoreError Unit
  | [] => .ok ()
  | (field,value)::rest =>
      if value = 0 then .error (.invalidConfig field "must be greater than zero") else requirePositive rest

def requireCeilings : List (String × Nat × Nat) → Except StoreError Unit
  | [] => .ok ()
  | (field,value,ceiling)::rest =>
      if value > ceiling then .error (.invalidConfig field "exceeds the hard resource ceiling")
      else requireCeilings rest

def CacheConfig.counts (c : CacheConfig) : List (String × Nat) :=
  [("max_entries",c.maxEntries),("max_loads",c.maxLoads),("max_waiters",c.maxWaiters),
    ("max_waiters_per_page",c.maxWaitersPerPage),("max_leases",c.maxLeases)]

def CacheConfig.ceilings (c : CacheConfig) : List (String × Nat × Nat) :=
  [("max_entries",c.maxEntries,maxEntriesCeiling),("max_loads",c.maxLoads,maxLoadsCeiling),
    ("max_waiters",c.maxWaiters,maxWaitersCeiling),
    ("max_waiters_per_page",c.maxWaitersPerPage,maxWaitersPerPageCeiling),
    ("max_leases",c.maxLeases,maxLeasesCeiling),("trace_capacity",c.traceCapacity,traceSinkMaxCapacity)]

def CacheConfig.validate (c : CacheConfig) : Except StoreError Unit :=
  if c.pagePoolCapacity = 0 then
    .error (.invalidConfig "page_pool_capacity" "must be greater than zero")
  else if c.maxPageBytes = 0 then
    .error (.invalidConfig "max_page_bytes" "must be greater than zero")
  else match alignedPageBufferBytes c.maxPageBytes with
    | .error _ => .error (.invalidConfig "max_page_bytes" "aligned supported-page allocation overflows")
    | .ok maxPageAllocation =>
      if maxPageAllocation > c.pagePoolCapacity then
        .error (.invalidConfig "max_page_bytes"
          "one aligned supported-page allocation must fit in the page pool")
      else if c.maxInflightBytes < maxPageAllocation ∨ c.maxInflightBytes > c.pagePoolCapacity then
        .error (.invalidConfig "max_inflight_bytes"
          "must fit one aligned supported-page allocation and not exceed the page pool")
      else match requirePositive c.counts with
        | .error e => .error e
        | .ok () => match requireCeilings c.ceilings with
          | .error e => .error e
          | .ok () =>
            if c.maxLoads > c.maxEntries then
              .error (.invalidConfig "max_loads" "must not exceed the entry limit")
            else if c.maxWaitersPerPage > c.maxWaiters then
              .error (.invalidConfig "max_waiters_per_page" "must not exceed the global waiter limit")
            else .ok ()

structure Accepted (c : CacheConfig) : Prop where
  pool : 0 < c.pagePoolCapacity
  page : 0 < c.maxPageBytes
  aligned : ∃ allocation, alignedPageBufferBytes c.maxPageBytes = .ok allocation ∧
    allocation ≤ c.pagePoolCapacity ∧ allocation ≤ c.maxInflightBytes
  inflight : c.maxInflightBytes ≤ c.pagePoolCapacity
  positive : ∀ row ∈ c.counts, 0 < row.2
  ceilings : ∀ row ∈ c.ceilings, row.2.1 ≤ row.2.2
  loads : c.maxLoads ≤ c.maxEntries
  perPage : c.maxWaitersPerPage ≤ c.maxWaiters

theorem positiveRows {rows} (ok : requirePositive rows = .ok ()) : ∀ row ∈ rows, 0 < row.2 := by
  induction rows with
  | nil => simp
  | cons row rest ih =>
    obtain ⟨field,value⟩ := row
    simp only [requirePositive] at ok
    split at ok
    · cases ok
    · intro r member
      rcases List.mem_cons.mp member with rfl | later
      · exact Nat.pos_of_ne_zero (by assumption)
      · exact ih ok r later

theorem ceilingRows {rows} (ok : requireCeilings rows = .ok ()) : ∀ row ∈ rows, row.2.1 ≤ row.2.2 := by
  induction rows with
  | nil => simp
  | cons row rest ih =>
    obtain ⟨field,value,ceiling⟩ := row
    simp only [requireCeilings] at ok
    split at ok
    · cases ok
    · intro r member
      rcases List.mem_cons.mp member with rfl | later
      · exact Nat.le_of_not_gt (by assumption)
      · exact ih ok r later

theorem validateAccepts {c : CacheConfig} (ok : c.validate = .ok ()) : Accepted c := by
  unfold CacheConfig.validate at ok
  split at ok
  · cases ok
  rename_i pool
  split at ok
  · cases ok
  rename_i page
  split at ok
  · cases ok
  rename_i allocation aligned
  split at ok
  · cases ok
  rename_i fits
  split at ok
  · cases ok
  rename_i inflight
  split at ok
  · cases ok
  rename_i counts
  split at ok
  · cases ok
  rename_i ceilings
  split at ok
  · cases ok
  rename_i loads
  split at ok
  · cases ok
  rename_i perPage
  exact ⟨by omega,by omega,⟨allocation,aligned,by omega,by omega⟩,by omega,positiveRows counts,
    ceilingRows ceilings,by omega,by omega⟩

theorem acceptedSmall {c : CacheConfig} (accepted : Accepted c) :
    c.maxEntries ≤ 1048576 ∧ c.maxLoads ≤ 4096 ∧ c.maxWaiters ≤ 1048576 ∧ c.maxLeases ≤ 1048576 := by
  have rows := accepted.ceilings
  simp only [CacheConfig.ceilings,List.forall_mem_cons] at rows
  exact ⟨rows.1,rows.2.1,rows.2.2.1,rows.2.2.2.2.1⟩

def defaultConfig : CacheConfig where
  pagePoolCapacity := 64 * 1024 * 1024
  maxPageBytes := 2 * 1024 * 1024
  maxInflightBytes := 16 * 1024 * 1024
  maxEntries := 4096
  maxLoads := 4
  maxWaiters := 4096
  maxWaitersPerPage := 128
  maxLeases := 4096
  traceCapacity := 1024
  poolFits := by decide

theorem defaultAccepted : defaultConfig.validate = .ok () := by decide

end RunnelMoe.CacheLimits
