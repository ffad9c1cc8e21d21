import Mathlib.Data.Int.Order.Basic
import OpenWrtCopilot.Verified.ExpiringStore
import OpenWrtCopilot.Verified.PyText
import OpenWrtCopilot.Verified.Runs

/-!
# The context cache

Ports `InMemoryContextCache` with its eviction loop and with its readings of the clock.  The clock
may have any numbers that are ordered; adding seconds to one may overflow.  What retrievals and
prompts are does not matter to the cache.  A log says for each of the two buckets what was set,
evicted, invalidated and cleared.

## Main results

* `correct_iff` — when an operation does what the cache is for.
* `meets_correct_iff` — when all operations of a run do.
* `negative_limit_raises` — a cache with a negative number of entries.
-/

namespace OpenWrtCopilot.Ports.ContextCache

open Verified
open Verified.ExpiringStore
open Verified.PyDict (Dict get? keys)
open Verified.PyText

variable {α β T : Type} [LinearOrder T]

/-! ## Models -/

/-- `CacheConfig`. -/
structure CacheConfig where
  enabled : Bool := true
  retrievalTtlSeconds : Int := 300
  promptTtlSeconds : Int := 60
  maxEntries : Int := 512

/-- What a call may raise: the `StopIteration` of an empty dictionary, which leaves a coroutine as
a `RuntimeError`, and the `OverflowError` of a sum. -/
inductive CacheError
  | stopIteration
  | overflow
  deriving DecidableEq

/-- `_retrieval` or `_prompt`, with its numbers of hits and misses. -/
structure Bucket (α T : Type) where
  store : Dict Text (T × α) := []
  hits : Nat := 0
  misses : Nat := 0

/-- `InMemoryContextCache`. -/
structure InMemoryContextCache (α β T : Type) where
  config : CacheConfig
  retrieval : Bucket α T := {}
  prompt : Bucket β T := {}

/-! ## Buckets -/

/-- `_prune`. -/
def prune (now : T) (store : Dict Text (T × α)) : Dict Text (T × α) :=
  store.filter fun entry => now < entry.2.1

/-- The loop of `_evict`. -/
def evict (limit : Int) : Dict Text (T × α) → Except CacheError Unit × Dict Text (T × α)
  | [] => if limit < 0 then (.error .stopIteration, []) else (.ok (), [])
  | oldest :: rest =>
      if limit < (rest.length + 1 : Nat) then evict limit rest else (.ok (), oldest :: rest)

namespace Bucket

/-- The body of `get_retrieval` and `get_prompt`, which read the clock in `_prune` and once more. -/
def get (key : Text) (pruned now : T) (bucket : Bucket α T) : Option α × Bucket α T :=
  let store := prune pruned bucket.store
  match get? key store with
  | none => (none, { bucket with store := store, misses := bucket.misses + 1 })
  | some (expires, value) =>
      if expires ≤ now then
        (none, { bucket with store := PyDict.erase key store, misses := bucket.misses + 1 })
      else (some value, { bucket with store := store, hits := bucket.hits + 1 })

/-- The body of `set_retrieval` and `set_prompt`. -/
def set (limit : Int) (key : Text) (value : α) (expires : Except CacheError T)
    (bucket : Bucket α T) : Except CacheError Unit × Bucket α T :=
  match expires with
  | .error raised => (.error raised, bucket)
  | .ok expires =>
      let (result, store) := evict limit (PyDict.set key (expires, value) bucket.store)
      (result, { bucket with store := store })

/-- `bucket.clear()`. -/
def clear (bucket : Bucket α T) : Bucket α T := { bucket with store := [] }

/-- The loop of `invalidate`. -/
def invalidate (keyPrefix : Text) (bucket : Bucket α T) : Bucket α T :=
  { bucket with store := bucket.store.filter fun entry => !startsWith keyPrefix entry.1 }

end Bucket

/-! ## The cache -/

section
variable (plus : T → Int → Except CacheError T)

namespace InMemoryContextCache

variable (cache : InMemoryContextCache α β T)

/-- `get_retrieval`. -/
def getRetrieval (key : Text) (pruned now : T) : Option α × InMemoryContextCache α β T :=
  if cache.config.enabled = true then
    let (value, bucket) := cache.retrieval.get key pruned now
    (value, { cache with retrieval := bucket })
  else (none, cache)

/-- `set_retrieval`. -/
def setRetrieval (key : Text) (chunks : α) (ttlSeconds : Option Int) (now : T) :
    Except CacheError Unit × InMemoryContextCache α β T :=
  if cache.config.enabled = true then
    let ttl := ttlSeconds.getD cache.config.retrievalTtlSeconds
    let (result, bucket) := cache.retrieval.set cache.config.maxEntries key chunks (plus now ttl)
    (result, { cache with retrieval := bucket })
  else (.ok (), cache)

/-- `get_prompt`. -/
def getPrompt (key : Text) (pruned now : T) : Option β × InMemoryContextCache α β T :=
  if cache.config.enabled = true then
    let (value, bucket) := cache.prompt.get key pruned now
    (value, { cache with prompt := bucket })
  else (none, cache)

/-- `set_prompt`. -/
def setPrompt (key : Text) (response : β) (ttlSeconds : Option Int) (now : T) :
    Except CacheError Unit × InMemoryContextCache α β T :=
  if cache.config.enabled = true then
    let ttl := ttlSeconds.getD cache.config.promptTtlSeconds
    let (result, bucket) := cache.prompt.set cache.config.maxEntries key response (plus now ttl)
    (result, { cache with prompt := bucket })
  else (.ok (), cache)

/-- `clear`. -/
def clear : InMemoryContextCache α β T :=
  { cache with retrieval := cache.retrieval.clear, prompt := cache.prompt.clear }

/-- `invalidate`. -/
def invalidate (keyPrefix : Text) : InMemoryContextCache α β T :=
  if keyPrefix = [] then cache.clear
  else
    { cache with
      retrieval := cache.retrieval.invalidate keyPrefix
      prompt := cache.prompt.invalidate keyPrefix }

end InMemoryContextCache

/-! ## Operations -/

/-- A call, with the readings of the clock. -/
inductive Operation (α β T : Type)
  | getRetrieval (key : Text) (pruned now : T)
  | setRetrieval (key : Text) (chunks : α) (ttlSeconds : Option Int) (now : T)
  | getPrompt (key : Text) (pruned now : T)
  | setPrompt (key : Text) (response : β) (ttlSeconds : Option Int) (now : T)
  | clear
  | invalidate (keyPrefix : Text)

/-- The readings of the clock, in their order. -/
def Operation.readings : Operation α β T → List T
  | .getRetrieval _ pruned now => [pruned, now]
  | .setRetrieval _ _ _ now => [now]
  | .getPrompt _ pruned now => [pruned, now]
  | .setPrompt _ _ _ now => [now]
  | .clear => []
  | .invalidate _ => []

/-- What a call returns or raises. -/
inductive Reply (α β : Type)
  | retrieval (chunks : Option α)
  | prompt (response : Option β)
  | done (result : Except CacheError Unit)

/-- A call. -/
def perform (cache : InMemoryContextCache α β T) :
    Operation α β T → Reply α β × InMemoryContextCache α β T
  | .getRetrieval key pruned now =>
      let (value, cache) := cache.getRetrieval key pruned now
      (.retrieval value, cache)
  | .setRetrieval key chunks ttlSeconds now =>
      let (result, cache) := cache.setRetrieval plus key chunks ttlSeconds now
      (.done result, cache)
  | .getPrompt key pruned now =>
      let (value, cache) := cache.getPrompt key pruned now
      (.prompt value, cache)
  | .setPrompt key response ttlSeconds now =>
      let (result, cache) := cache.setPrompt plus key response ttlSeconds now
      (.done result, cache)
  | .clear => (.done (.ok ()), cache.clear)
  | .invalidate keyPrefix => (.done (.ok ()), cache.invalidate keyPrefix)

/-! ## What the cache is for -/

/-- What happens to the entries of a bucket, the latest first: a value is set, and what the bucket
does not keep is evicted. -/
def Bucket.setEvents (limit : Int) (key : Text) (value : α) (expires : Except CacheError T)
    (bucket : Bucket α T) : List (Event Text α T) :=
  match expires with
  | .error _ => []
  | .ok expires =>
      let stored := PyDict.set key (expires, value) bucket.store
      let evicted := (keys stored).filter (· ∉ keys (evict limit stored).2)
      [.drop (· ∈ evicted), .set key expires value]

/-- What a call does to the retrievals; a disabled cache sets nothing. -/
def retrievalEvents (cache : InMemoryContextCache α β T) :
    Operation α β T → List (Event Text α T)
  | .setRetrieval key chunks ttlSeconds now =>
      if cache.config.enabled = true then
        let ttl := ttlSeconds.getD cache.config.retrievalTtlSeconds
        cache.retrieval.setEvents cache.config.maxEntries key chunks (plus now ttl)
      else []
  | .clear => [.drop fun _ => true]
  | .invalidate keyPrefix => [.drop (startsWith keyPrefix)]
  | _ => []

/-- What a call does to the prompts. -/
def promptEvents (cache : InMemoryContextCache α β T) : Operation α β T → List (Event Text β T)
  | .setPrompt key response ttlSeconds now =>
      if cache.config.enabled = true then
        let ttl := ttlSeconds.getD cache.config.promptTtlSeconds
        cache.prompt.setEvents cache.config.maxEntries key response (plus now ttl)
      else []
  | .clear => [.drop fun _ => true]
  | .invalidate keyPrefix => [.drop (startsWith keyPrefix)]
  | _ => []

/-- A cache with what happened to its entries. -/
structure Logged (α β T : Type) where
  cache : InMemoryContextCache α β T
  retrievals : List (Event Text α T) := []
  prompts : List (Event Text β T) := []

def step (op : Operation α β T) (s : Logged α β T) : Option (Logged α β T) :=
  some
    { cache := (perform plus s.cache op).2
      retrievals := retrievalEvents plus s.cache op ++ s.retrievals
      prompts := promptEvents plus s.cache op ++ s.prompts }

/-- Where a value is asked for the reply is the one that the log has, and nothing is raised. -/
def Answers (s : Logged α β T) : Operation α β T → Reply α β → Prop
  | .getRetrieval key _ now, reply => reply = .retrieval (live now (current key s.retrievals))
  | .getPrompt key _ now, reply => reply = .prompt (live now (current key s.prompts))
  | _, reply => reply = .done (.ok ())

/-- No bucket has more entries than the configuration allows. -/
def Bounded (cache : InMemoryContextCache α β T) : Prop :=
  (cache.retrieval.store.length : Int) ≤ max 0 cache.config.maxEntries ∧
    (cache.prompt.store.length : Int) ≤ max 0 cache.config.maxEntries

/-- A call answers, and no bucket has too many entries after it. -/
def Correct (s : Logged α β T) (op : Operation α β T) : Prop :=
  Answers s op (perform plus s.cache op).1 ∧ Bounded (perform plus s.cache op).2

/-- The configuration allows entries, and the time at which the entry expires is a number. -/
def Settable (config : CacheConfig) (now : T) (ttl : Int) : Prop :=
  0 ≤ config.maxEntries ∧ ∃ expires, plus now ttl = .ok expires

/-- A call of an enabled cache sets only what is settable. -/
def Allowed (config : CacheConfig) : Operation α β T → Prop
  | .setRetrieval _ _ ttlSeconds now =>
      config.enabled = true → Settable plus config now (ttlSeconds.getD config.retrievalTtlSeconds)
  | .setPrompt _ _ ttlSeconds now =>
      config.enabled = true → Settable plus config now (ttlSeconds.getD config.promptTtlSeconds)
  | _ => True

end

/-! ## Eviction -/

section
omit [LinearOrder T]

theorem evict_ok_iff (limit : Int) (store : Dict Text (T × α)) :
    (evict limit store).1 = .ok () ↔ 0 ≤ limit := by
  induction store with
  | nil =>
    rw [evict]
    split
    · next hneg => exact iff_of_false nofun (Int.not_le.mpr hneg)
    · next hnat => exact iff_of_true rfl (Int.not_lt.mp hnat)
  | cons oldest rest ih =>
    rw [evict]
    split
    · exact ih
    · next hfits => exact iff_of_true rfl (by omega)

theorem length_evict_le (limit : Int) (store : Dict Text (T × α)) :
    ((evict limit store).2.length : Int) ≤ max 0 limit := by
  induction store with
  | nil =>
    rw [evict]
    split <;> exact Int.le_max_left 0 limit
  | cons oldest rest ih =>
    rw [evict]
    split
    · exact ih
    · next hfits =>
        rw [List.length_cons]
        omega

theorem evict_suffix (limit : Int) (store : Dict Text (T × α)) :
    (evict limit store).2 <:+ store := by
  induction store with
  | nil =>
    rw [evict]
    split <;> exact List.suffix_rfl
  | cons oldest rest ih =>
    rw [evict]
    split
    · exact ih.trans (List.suffix_cons oldest rest)
    · exact List.suffix_rfl

/-- What is left is what has not been evicted. -/
theorem evict_eq_filter (limit : Int) {store : Dict Text (T × α)} (hnodup : (keys store).Nodup) :
    (evict limit store).2 = store.filter fun entry =>
      !decide (entry.1 ∈ (keys store).filter (· ∉ keys (evict limit store).2)) := by
  obtain ⟨gone, heq⟩ := evict_suffix limit store
  generalize (evict limit store).2 = kept at heq
  subst heq
  rw [PyDict.keys_append, List.nodup_append] at hnodup
  have hgone : ∀ entry ∈ gone, entry.1 ∈ (keys (gone ++ kept)).filter (· ∉ keys kept) := by
    intro entry hentry
    have hkey : entry.1 ∈ keys gone := List.mem_map_of_mem hentry
    refine List.mem_filter.mpr ⟨?_, ?_⟩
    · rw [PyDict.keys_append]
      exact List.mem_append_left _ hkey
    · exact decide_eq_true fun hkept => hnodup.2.2 _ hkey _ hkept rfl
  have hkept : ∀ entry ∈ kept, entry.1 ∉ (keys (gone ++ kept)).filter (· ∉ keys kept) := by
    intro entry hentry hmem
    exact of_decide_eq_true (List.mem_filter.mp hmem).2 (List.mem_map_of_mem hentry)
  rw [List.filter_append, List.filter_eq_nil_iff.mpr, List.nil_append, List.filter_eq_self.mpr]
  · intro entry hentry
    rw [decide_eq_false (hkept entry hentry), Bool.not_false]
  · intro entry hentry
    rw [decide_eq_true (hgone entry hentry)]
    exact Bool.false_ne_true

end

/-! ## Buckets track their logs -/

namespace Bucket

theorem prune_tracks {store : Dict Text (T × α)} {log : List (Event Text α T)} {pruned later : T}
    (h : Tracks store log later) (hle : pruned ≤ later) :
    Tracks (prune pruned store) log later := by
  refine h.prune le_rfl fun entry _ hkept => ?_
  exact le_trans (not_lt.mp (of_decide_eq_false hkept)) hle

theorem length_prune_le (now : T) (store : Dict Text (T × α)) :
    (prune now store).length ≤ store.length :=
  List.length_filter_le _ _

variable {bucket : Bucket α T} {log : List (Event Text α T)}

/-- A value that is found is the one that the log has. -/
theorem get_eq {key : Text} {pruned now : T} (h : Tracks bucket.store log pruned)
    (hle : pruned ≤ now) : (bucket.get key pruned now).1 = live now (current key log) := by
  rw [← (prune_tracks h le_rfl).live hle key, get]
  split
  · next hnone => rw [hnone, live, Option.filter_none, Option.map_none]
  · next expires value hsome =>
      rw [hsome, live]
      split
      · next hexpired => rw [Option.filter_some, if_neg (by simpa using hexpired), Option.map_none]
      · next hfresh => rw [Option.filter_some, if_pos (by simpa using hfresh), Option.map_some]

theorem tracks_get {key : Text} {pruned now later : T} (h : Tracks bucket.store log later)
    (hpruned : pruned ≤ later) (hnow : now ≤ later) :
    Tracks (bucket.get key pruned now).2.store log later := by
  have hprune := prune_tracks h hpruned
  rw [get]
  split
  · exact hprune
  · next expires value hsome =>
      split
      · next hexpired =>
          refine hprune.prune le_rfl fun entry hentry hkept => ?_
          have hkey : entry.1 = key := not_not.mp (of_decide_eq_false hkept)
          have hget := (PyDict.get?_eq_some_iff hprune.nodup).mpr hentry
          rw [hkey, hsome] at hget
          rw [← Option.some.inj hget]
          exact le_trans hexpired hnow
      · exact hprune

theorem length_get_le (key : Text) (pruned now : T) (bucket : Bucket α T) :
    (bucket.get key pruned now).2.store.length ≤ bucket.store.length := by
  rw [get]
  split
  · exact length_prune_le _ _
  · split
    · exact (List.length_filter_le _ _).trans (length_prune_le _ _)
    · exact length_prune_le _ _

theorem tracks_set {later : T} (h : Tracks bucket.store log later) (limit : Int) (key : Text)
    (value : α) (expires : Except CacheError T) :
    Tracks (bucket.set limit key value expires).2.store
      (bucket.setEvents limit key value expires ++ log) later := by
  cases expires with
  | error raised => exact h
  | ok expires =>
    have hset := h.set key expires value
    change Tracks (evict limit _).2 _ later
    rw [evict_eq_filter limit hset.nodup]
    exact hset.drop fun gone =>
      gone ∈ (keys (PyDict.set key (expires, value) bucket.store)).filter
        (· ∉ keys (evict limit (PyDict.set key (expires, value) bucket.store)).2)

omit [LinearOrder T] in
theorem set_ok_iff (limit : Int) (key : Text) (value : α) (expires : Except CacheError T) :
    (bucket.set limit key value expires).1 = .ok () ↔ 0 ≤ limit ∧ ∃ time, expires = .ok time := by
  cases expires with
  | error raised => exact iff_of_false nofun fun h => nomatch h.2
  | ok expires => exact (evict_ok_iff limit _).trans (and_iff_left ⟨expires, rfl⟩).symm

omit [LinearOrder T] in
theorem length_set_le {limit : Int} (h : (bucket.store.length : Int) ≤ max 0 limit) (key : Text)
    (value : α) (expires : Except CacheError T) :
    ((bucket.set limit key value expires).2.store.length : Int) ≤ max 0 limit := by
  cases expires with
  | error raised => exact h
  | ok expires => exact length_evict_le limit _

theorem tracks_clear {later : T} (h : Tracks bucket.store log later) :
    Tracks bucket.clear.store (.drop (fun _ => true) :: log) later := by
  have hdrop := h.drop fun _ => true
  rwa [Bool.not_true, List.filter_false] at hdrop

theorem tracks_invalidate {later : T} (h : Tracks bucket.store log later) (keyPrefix : Text) :
    Tracks (bucket.invalidate keyPrefix).store (.drop (startsWith keyPrefix) :: log) later :=
  h.drop (startsWith keyPrefix)

omit [LinearOrder T] in
theorem length_invalidate_le (keyPrefix : Text) (bucket : Bucket α T) :
    (bucket.invalidate keyPrefix).store.length ≤ bucket.store.length :=
  List.length_filter_le _ _

end Bucket

/-! ## Steps -/

variable (plus : T → Int → Except CacheError T)

theorem perform_getRetrieval (cache : InMemoryContextCache α β T) (key : Text) (pruned now : T) :
    perform plus cache (.getRetrieval key pruned now) =
      if cache.config.enabled = true then
        (.retrieval (cache.retrieval.get key pruned now).1,
          { cache with retrieval := (cache.retrieval.get key pruned now).2 })
      else (.retrieval none, cache) := by
  rw [perform, InMemoryContextCache.getRetrieval]
  by_cases henabled : cache.config.enabled = true
  · rw [if_pos henabled, if_pos henabled]
  · rw [if_neg henabled, if_neg henabled]

theorem perform_setRetrieval (cache : InMemoryContextCache α β T) (key : Text) (chunks : α)
    (ttlSeconds : Option Int) (now : T) :
    perform plus cache (.setRetrieval key chunks ttlSeconds now) =
      if cache.config.enabled = true then
        let expires := plus now (ttlSeconds.getD cache.config.retrievalTtlSeconds)
        let stored := cache.retrieval.set cache.config.maxEntries key chunks expires
        (.done stored.1, { cache with retrieval := stored.2 })
      else (.done (.ok ()), cache) := by
  rw [perform, InMemoryContextCache.setRetrieval]
  by_cases henabled : cache.config.enabled = true
  · rw [if_pos henabled, if_pos henabled]
  · rw [if_neg henabled, if_neg henabled]

theorem perform_getPrompt (cache : InMemoryContextCache α β T) (key : Text) (pruned now : T) :
    perform plus cache (.getPrompt key pruned now) =
      if cache.config.enabled = true then
        (.prompt (cache.prompt.get key pruned now).1,
          { cache with prompt := (cache.prompt.get key pruned now).2 })
      else (.prompt none, cache) := by
  rw [perform, InMemoryContextCache.getPrompt]
  by_cases henabled : cache.config.enabled = true
  · rw [if_pos henabled, if_pos henabled]
  · rw [if_neg henabled, if_neg henabled]

theorem perform_setPrompt (cache : InMemoryContextCache α β T) (key : Text) (response : β)
    (ttlSeconds : Option Int) (now : T) :
    perform plus cache (.setPrompt key response ttlSeconds now) =
      if cache.config.enabled = true then
        let expires := plus now (ttlSeconds.getD cache.config.promptTtlSeconds)
        let stored := cache.prompt.set cache.config.maxEntries key response expires
        (.done stored.1, { cache with prompt := stored.2 })
      else (.done (.ok ()), cache) := by
  rw [perform, InMemoryContextCache.setPrompt]
  by_cases henabled : cache.config.enabled = true
  · rw [if_pos henabled, if_pos henabled]
  · rw [if_neg henabled, if_neg henabled]

theorem perform_config (cache : InMemoryContextCache α β T) (op : Operation α β T) :
    (perform plus cache op).2.config = cache.config := by
  cases op with
  | getRetrieval key pruned now =>
    rw [perform_getRetrieval]
    split <;> rfl
  | setRetrieval key chunks ttlSeconds now =>
    rw [perform_setRetrieval]
    split <;> rfl
  | getPrompt key pruned now =>
    rw [perform_getPrompt]
    split <;> rfl
  | setPrompt key response ttlSeconds now =>
    rw [perform_setPrompt]
    split <;> rfl
  | clear => rfl
  | invalidate keyPrefix =>
    rw [perform, InMemoryContextCache.invalidate]
    split <;> rfl

/-- No call makes a bucket too large. -/
theorem bounded_perform {cache : InMemoryContextCache α β T} (h : Bounded cache)
    (op : Operation α β T) : Bounded (perform plus cache op).2 := by
  have hle {first second : Nat} {bound : Int} (hle : first ≤ second) (h : (second : Int) ≤ bound) :
      (first : Int) ≤ bound := by omega
  cases op with
  | getRetrieval key pruned now =>
    rw [perform_getRetrieval]
    split
    · exact ⟨hle (Bucket.length_get_le key pruned now _) h.1, h.2⟩
    · exact h
  | setRetrieval key chunks ttlSeconds now =>
    rw [perform_setRetrieval]
    split
    · exact ⟨Bucket.length_set_le h.1 key chunks _, h.2⟩
    · exact h
  | getPrompt key pruned now =>
    rw [perform_getPrompt]
    split
    · exact ⟨h.1, hle (Bucket.length_get_le key pruned now _) h.2⟩
    · exact h
  | setPrompt key response ttlSeconds now =>
    rw [perform_setPrompt]
    split
    · exact ⟨h.1, Bucket.length_set_le h.2 key response _⟩
    · exact h
  | clear => exact ⟨Int.le_max_left 0 _, Int.le_max_left 0 _⟩
  | invalidate keyPrefix =>
    rw [perform, InMemoryContextCache.invalidate]
    split
    · exact ⟨Int.le_max_left 0 _, Int.le_max_left 0 _⟩
    · exact ⟨hle (Bucket.length_invalidate_le keyPrefix _) h.1,
        hle (Bucket.length_invalidate_le keyPrefix _) h.2⟩

/-- What holds between calls: no bucket has too many entries, and those of a disabled cache have
none. -/
structure Holds (cache : InMemoryContextCache α β T) : Prop where
  bounded : Bounded cache
  disabled : cache.config.enabled = false → cache.retrieval.store = [] ∧ cache.prompt.store = []

theorem holds_perform {cache : InMemoryContextCache α β T} (h : Holds cache)
    (op : Operation α β T) : Holds (perform plus cache op).2 := by
  refine ⟨bounded_perform plus h.bounded op, fun hdisabled => ?_⟩
  rw [perform_config] at hdisabled
  obtain ⟨hretrieval, hprompt⟩ := h.disabled hdisabled
  have hoff : ¬cache.config.enabled = true := by
    rw [hdisabled]
    exact Bool.false_ne_true
  cases op with
  | getRetrieval key pruned now =>
    rw [perform_getRetrieval, if_neg hoff]
    exact ⟨hretrieval, hprompt⟩
  | setRetrieval key chunks ttlSeconds now =>
    rw [perform_setRetrieval, if_neg hoff]
    exact ⟨hretrieval, hprompt⟩
  | getPrompt key pruned now =>
    rw [perform_getPrompt, if_neg hoff]
    exact ⟨hretrieval, hprompt⟩
  | setPrompt key response ttlSeconds now =>
    rw [perform_setPrompt, if_neg hoff]
    exact ⟨hretrieval, hprompt⟩
  | clear => exact ⟨rfl, rfl⟩
  | invalidate keyPrefix =>
    rw [perform, InMemoryContextCache.invalidate]
    split
    · exact ⟨rfl, rfl⟩
    · refine ⟨?_, ?_⟩ <;> dsimp only <;> rw [Bucket.invalidate]
      · rw [hretrieval, List.filter_nil]
      · rw [hprompt, List.filter_nil]

/-- The buckets track their logs up to a time. -/
structure Ready (s : Logged α β T) (time : T) : Prop where
  retrieval : Tracks s.cache.retrieval.store s.retrievals time
  prompt : Tracks s.cache.prompt.store s.prompts time

/-- What a call does is tracked up to every time after its readings of the clock. -/
theorem ready_step {s after : Logged α β T} {op : Operation α β T} {later : T}
    (h : Ready s later) (hreadings : ∀ time ∈ op.readings, time ≤ later)
    (hstep : step plus op s = some after) : Ready after later := by
  obtain rfl := Option.some.inj hstep
  obtain ⟨hretrieval, hprompt⟩ := h
  cases op with
  | getRetrieval key pruned now =>
    have hpruned := hreadings pruned List.mem_cons_self
    have hnow := hreadings now (List.mem_cons_of_mem _ List.mem_cons_self)
    refine ⟨?_, ?_⟩ <;> dsimp only <;> rw [perform_getRetrieval] <;> split
    · exact Bucket.tracks_get hretrieval hpruned hnow
    · exact hretrieval
    · exact hprompt
    · exact hprompt
  | setRetrieval key chunks ttlSeconds now =>
    refine ⟨?_, ?_⟩ <;> dsimp only <;> rw [perform_setRetrieval]
    · rw [retrievalEvents]
      split
      · exact Bucket.tracks_set hretrieval _ key chunks _
      · exact hretrieval
    · split <;> exact hprompt
  | getPrompt key pruned now =>
    have hpruned := hreadings pruned List.mem_cons_self
    have hnow := hreadings now (List.mem_cons_of_mem _ List.mem_cons_self)
    refine ⟨?_, ?_⟩ <;> dsimp only <;> rw [perform_getPrompt] <;> split
    · exact hretrieval
    · exact hretrieval
    · exact Bucket.tracks_get hprompt hpruned hnow
    · exact hprompt
  | setPrompt key response ttlSeconds now =>
    refine ⟨?_, ?_⟩ <;> dsimp only <;> rw [perform_setPrompt]
    · split <;> exact hretrieval
    · rw [promptEvents]
      split
      · exact Bucket.tracks_set hprompt _ key response _
      · exact hprompt
  | clear => exact ⟨Bucket.tracks_clear hretrieval, Bucket.tracks_clear hprompt⟩
  | invalidate keyPrefix =>
    refine ⟨?_, ?_⟩ <;> dsimp only <;> rw [perform, InMemoryContextCache.invalidate]
    · rw [retrievalEvents]
      split
      · next hall =>
          rw [hall]
          exact Bucket.tracks_clear hretrieval
      · exact Bucket.tracks_invalidate hretrieval keyPrefix
    · rw [promptEvents]
      split
      · next hall =>
          rw [hall]
          exact Bucket.tracks_clear hprompt
      · exact Bucket.tracks_invalidate hprompt keyPrefix

/-- A disabled bucket finds nothing, as its log has nothing that is live. -/
theorem live_of_empty {store : Dict Text (T × α)} {log : List (Event Text α T)} {now : T}
    (h : Tracks store log now) (hempty : store = []) (key : Text) :
    live now (current key log) = none := by
  rw [← h.live le_rfl, hempty, PyDict.get?_nil, live, Option.filter_none, Option.map_none]

/-- **When an operation does what the cache is for.** -/
theorem correct_iff {s : Logged α β T} {op : Operation α β T} (h : Holds s.cache)
    (hready : ∀ time ∈ op.readings, Ready s time) (hclock : op.readings.Pairwise (· ≤ ·)) :
    Correct plus s op ↔ Allowed plus s.cache.config op := by
  refine (and_iff_left (bounded_perform plus h.bounded op)).trans ?_
  cases op with
  | getRetrieval key pruned now =>
    refine iff_of_true ?_ trivial
    have hle : pruned ≤ now := (List.pairwise_cons.mp hclock).1 now List.mem_cons_self
    rw [Answers, perform_getRetrieval]
    split
    · exact congrArg _ (Bucket.get_eq (hready pruned List.mem_cons_self).retrieval hle)
    · next hoff =>
        have hempty := (h.disabled (Bool.eq_false_iff.mpr hoff)).1
        have hnow := hready now (List.mem_cons_of_mem _ List.mem_cons_self)
        exact congrArg _ (live_of_empty hnow.retrieval hempty key).symm
  | setRetrieval key chunks ttlSeconds now =>
    change (perform plus s.cache _).1 = .done (.ok ()) ↔ _
    rw [perform_setRetrieval, Allowed]
    split
    · next henabled =>
        rw [Reply.done.injEq, Bucket.set_ok_iff, forall_prop_of_true henabled, Settable]
    · next hoff => exact iff_of_true rfl fun henabled => absurd henabled hoff
  | getPrompt key pruned now =>
    refine iff_of_true ?_ trivial
    have hle : pruned ≤ now := (List.pairwise_cons.mp hclock).1 now List.mem_cons_self
    rw [Answers, perform_getPrompt]
    split
    · exact congrArg _ (Bucket.get_eq (hready pruned List.mem_cons_self).prompt hle)
    · next hoff =>
        have hempty := (h.disabled (Bool.eq_false_iff.mpr hoff)).2
        have hnow := hready now (List.mem_cons_of_mem _ List.mem_cons_self)
        exact congrArg _ (live_of_empty hnow.prompt hempty key).symm
  | setPrompt key response ttlSeconds now =>
    change (perform plus s.cache _).1 = .done (.ok ()) ↔ _
    rw [perform_setPrompt, Allowed]
    split
    · next henabled =>
        rw [Reply.done.injEq, Bucket.set_ok_iff, forall_prop_of_true henabled, Settable]
    · next hoff => exact iff_of_true rfl fun henabled => absurd henabled hoff
  | clear => exact iff_of_true rfl trivial
  | invalidate keyPrefix => exact iff_of_true rfl trivial

/-! ## Runs -/

/-- A new cache. -/
def start (config : CacheConfig) : Logged α β T := { cache := { config := config } }

omit [LinearOrder T] in
theorem holds_start (config : CacheConfig) :
    Holds (start config : Logged α β T).cache where
  bounded := ⟨Int.le_max_left 0 _, Int.le_max_left 0 _⟩
  disabled := fun _ => ⟨rfl, rfl⟩

theorem ready_start (config : CacheConfig) (time : T) :
    Ready (start config : Logged α β T) time :=
  ⟨Tracks.nil time, Tracks.nil time⟩

/-- The rule for runs, from a state in which all times to come are tracked. -/
theorem meets_iff_allowed {s : Logged α β T} {ops : List (Operation α β T)} (h : Holds s.cache)
    (hready : ∀ time ∈ ops.flatMap Operation.readings, Ready s time)
    (hclock : (ops.flatMap Operation.readings).Pairwise (· ≤ ·)) :
    Runs.Meets (step plus) (Correct plus) ops s ↔ ∀ op ∈ ops, Allowed plus s.cache.config op := by
  induction ops generalizing s with
  | nil => exact iff_of_true trivial nofun
  | cons op ops ih =>
    rw [List.flatMap_cons] at hready hclock
    obtain ⟨hnow, hlater, hbetween⟩ := List.pairwise_append.mp hclock
    have hcorrect : Correct plus s op ↔ Allowed plus s.cache.config op :=
      correct_iff plus h (fun time htime => hready time (List.mem_append_left _ htime)) hnow
    have hrest (after : Logged α β T) (hstep : step plus op s = some after) :
        Runs.Meets (step plus) (Correct plus) ops after ↔
          ∀ op ∈ ops, Allowed plus s.cache.config op := by
      have hafter : after.cache = (perform plus s.cache op).2 := by
        rw [← Option.some.inj hstep]
      have hconfig : after.cache.config = s.cache.config := by
        rw [hafter, perform_config]
      rw [← hconfig]
      refine ih (hafter ▸ holds_perform plus h op) (fun time htime => ?_) hlater
      exact ready_step plus (hready time (List.mem_append_right _ htime))
        (fun reading hreading => hbetween reading hreading time htime) hstep
    rw [Runs.Meets, hcorrect, List.forall_mem_cons]
    refine and_congr_right fun _ => ⟨fun hmeets => ?_, fun hallowed after hstep => ?_⟩
    · exact (hrest _ rfl).mp (hmeets _ rfl)
    · exact (hrest after hstep).mpr hallowed

/-- **When all operations of a run do what the cache is for**, on a clock that does not go
back. -/
theorem meets_correct_iff (config : CacheConfig) (ops : List (Operation α β T))
    (hclock : (ops.flatMap Operation.readings).Pairwise (· ≤ ·)) :
    Runs.Meets (step plus) (Correct plus) ops (start config) ↔
      ∀ op ∈ ops, Allowed plus config op :=
  meets_iff_allowed plus (holds_start config) (fun time _ => ready_start config time) hclock

/-- A clock of whole seconds, to which any number of seconds can be added. -/
def plusSeconds (now ttl : Int) : Except CacheError Int := .ok (now + ttl)

/-- A value is set, found, and asked for after it has expired. -/
def setAndGet : List (Operation Nat Nat Int) :=
  [.setRetrieval ['k'] 7 none 0, .getRetrieval ['k'] 1 2, .getRetrieval ['k'] 300 301]

theorem meets_correct_setAndGet :
    Runs.Meets (step plusSeconds) (Correct plusSeconds) setAndGet (start {}) ↔
      ∀ op ∈ setAndGet, Allowed plusSeconds {} op :=
  meets_correct_iff plusSeconds {} setAndGet (by decide)

/-- A cache with a negative number of entries raises when a value is set. -/
theorem negative_limit_raises :
    ¬Runs.Meets (step plusSeconds) (Correct plusSeconds)
      ([.setRetrieval ['k'] 7 none 0] : List (Operation Nat Nat Int))
      (start { maxEntries := -1 }) := by
  intro hmeets
  have hanswer := hmeets.1.1
  have hraised : (perform plusSeconds (start { maxEntries := -1 }).cache
      (.setRetrieval ['k'] 7 none 0 : Operation Nat Nat Int)).1 =
      .done (.error .stopIteration) := rfl
  cases hraised.symm.trans hanswer

end OpenWrtCopilot.Ports.ContextCache
