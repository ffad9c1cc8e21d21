import Mathlib.Data.List.Chain
import OpenWrtCopilot.Ports.KnowledgeChunking

/-!
# Where the windows of a document lie

Ports the loop of `SlidingWindowChunkStrategy.chunk`, as the positions of the words each
window is cut from.

## Main results

* `slidingLoop_spec` — the loop ends, and where its windows begin and end.
* `texts_eq` — they are the windows of the strategy.
* `sliding_chunks` — what the chunks of a document share and leave out.
-/

namespace OpenWrtCopilot.Ports.KnowledgeWindows

open Verified
open Verified.Chunks (windows)
open Verified.PyText
open Ports.KnowledgeChunking

/-- A window is given by the position of its first word and that after its last. -/
abbrev Span := Nat × Nat

/-- The `while` loop from `start`, over `n` words; `none` where the rounds do not suffice. -/
def slidingLoop (size stride n : Nat) : Nat → Nat → Option (List Span)
  | 0, start => if start < n then none else some []
  | rounds + 1, start =>
      if start < n then
        let span := (start, min (start + size) n)
        if start + size ≥ n then some [span]
        else (slidingLoop size stride n rounds (start + stride)).map (span :: ·)
      else some []

/-- The words of a window. -/
def cut {α : Type} (l : List α) (span : Span) : List α := (l.take span.2).drop span.1

/-- Every position is in a window. -/
def CoversAll (n : Nat) (spans : List Span) : Prop :=
  ∀ i < n, ∃ span ∈ spans, span.1 ≤ i ∧ i < span.2

/-- Windows of at most `size` words that follow each other from the first word to the last,
and share exactly `overlap` words with the next one, which goes further. -/
structure Slides (size overlap n : Nat) (spans : List Span) : Prop where
  bounded : ∀ span ∈ spans, span.1 < span.2 ∧ span.2 ≤ span.1 + size ∧ span.2 ≤ n
  first : ∀ span, spans.head? = some span → span.1 = 0
  last : ∀ span, spans.getLast? = some span → span.2 = n
  shares : spans.IsChain fun a b => a.1 < b.1 ∧ a.2 = b.1 + overlap ∧ a.2 < b.2
  some_window : 0 < n → spans ≠ []
  covered : CoversAll n spans

/-- What the loop leaves from `start` on. -/
structure From (size stride n start : Nat) (spans : List Span) : Prop where
  bounded : ∀ span ∈ spans, span.1 < span.2 ∧ span.2 ≤ span.1 + size ∧ span.2 ≤ n
  first : ∀ span, spans.head? = some span → span.1 = start ∧ span.2 = min (start + size) n
  last : ∀ span, spans.getLast? = some span → span.2 = n
  apart : spans.IsChain fun a b => b.1 = a.1 + stride ∧ a.2 = a.1 + size ∧ a.2 < b.2
  some_window : start < n → spans ≠ []
  covered : stride ≤ size → ∀ i, start ≤ i → i < n → ∃ span ∈ spans, span.1 ≤ i ∧ i < span.2

section Loop

variable {size stride n : Nat}

theorem From.done {start : Nat} (h : n ≤ start) : From size stride n start [] where
  bounded := nofun
  first := nofun
  last := nofun
  apart := .nil
  some_window := fun hstart => absurd hstart (Nat.not_lt.mpr h)
  covered := fun _ _ hi hn => absurd (Nat.le_trans h hi) (Nat.not_le.mpr hn)

/-- The last round. -/
theorem From.single {start : Nat} (hstart : start < n)
    (hend : n ≤ start + size) : From size stride n start [(start, min (start + size) n)] := by
  have hmin : min (start + size) n = n := Nat.min_eq_right hend
  rw [hmin]
  refine
    { bounded := ?_, first := ?_, last := ?_, apart := .singleton _
      some_window := fun _ => List.cons_ne_nil _ _, covered := ?_ }
  · intro span hspan
    rw [List.mem_singleton.mp hspan]
    exact ⟨hstart, hend, Nat.le_refl n⟩
  · intro span hspan
    cases hspan
    exact ⟨rfl, hmin.symm⟩
  · intro span hspan
    cases hspan
    rfl
  · intro _ i hi hn
    exact ⟨_, List.mem_singleton_self _, hi, hn⟩

/-- A round before the last. -/
theorem From.cons {start : Nat} {spans : List Span} (hsize : 0 < size) (hstride : 0 < stride)
    (hmore : start + size < n) (hrest : From size stride n (start + stride) spans)
    (hlater : start + stride < n) :
    From size stride n start ((start, min (start + size) n) :: spans) := by
  have hmin : min (start + size) n = start + size := Nat.min_eq_left (Nat.le_of_lt hmore)
  rw [hmin]
  obtain ⟨next, rest, rfl⟩ := List.exists_cons_of_ne_nil (hrest.some_window hlater)
  obtain ⟨hnext, hstop⟩ := hrest.first next rfl
  refine
    { bounded := ?_, first := ?_, last := ?_, apart := ?_
      some_window := fun _ => List.cons_ne_nil _ _, covered := ?_ }
  · intro span hspan
    obtain rfl | hspan := List.mem_cons.mp hspan
    · exact ⟨by omega, Nat.le_refl _, by omega⟩
    · exact hrest.bounded span hspan
  · intro span hspan
    cases hspan
    exact ⟨rfl, hmin.symm⟩
  · intro span hspan
    exact hrest.last span hspan
  · refine .cons_cons ⟨hnext, rfl, ?_⟩ hrest.apart
    show start + size < next.2
    omega
  · intro hle i hi hn
    by_cases hhere : i < start + size
    · exact ⟨_, List.mem_cons_self, hi, hhere⟩
    · obtain ⟨span, hspan, hin⟩ := hrest.covered hle i (by omega) hn
      exact ⟨span, List.mem_cons_of_mem _ hspan, hin⟩

/-- The loop ends, and what it leaves. -/
theorem slidingLoop_spec (hsize : 0 < size) (hstride : 0 < stride) (hle : stride ≤ size)
    (start rounds : Nat) (hrounds : n ≤ start + rounds) :
    ∃ spans, slidingLoop size stride n rounds start = some spans ∧
      From size stride n start spans := by
  induction rounds generalizing start with
  | zero =>
    have hdone : n ≤ start := hrounds
    exact ⟨[], if_neg (Nat.not_lt.mpr hdone), From.done hdone⟩
  | succ rounds ih =>
    rw [slidingLoop]
    by_cases hstart : start < n
    · rw [if_pos hstart]
      dsimp only
      by_cases hend : start + size ≥ n
      · rw [if_pos hend]
        exact ⟨_, rfl, From.single hstart hend⟩
      · rw [if_neg hend]
        obtain ⟨spans, hspans, hfrom⟩ := ih (start + stride) (by omega)
        rw [hspans]
        exact ⟨_, rfl, hfrom.cons hsize hstride (by omega) (by omega)⟩
    · rw [if_neg hstart]
      exact ⟨[], rfl, From.done (Nat.le_of_not_lt hstart)⟩

/-- More rounds change nothing. -/
theorem slidingLoop_mono {start rounds more : Nat} {spans : List Span}
    (h : slidingLoop size stride n rounds start = some spans) (hle : rounds ≤ more) :
    slidingLoop size stride n more start = some spans := by
  induction rounds generalizing start more spans with
  | zero =>
    by_cases hstart : start < n
    · rw [slidingLoop, if_pos hstart] at h
      cases h
    · rw [slidingLoop, if_neg hstart] at h
      cases more with
      | zero => rw [slidingLoop, if_neg hstart, h]
      | succ more => rw [slidingLoop, if_neg hstart, h]
  | succ rounds ih =>
    obtain ⟨more, rfl⟩ : ∃ m, more = m + 1 := ⟨more - 1, by omega⟩
    rw [slidingLoop] at h ⊢
    by_cases hstart : start < n
    · rw [if_pos hstart] at h ⊢
      dsimp only at h ⊢
      by_cases hend : start + size ≥ n
      · rw [if_pos hend] at h ⊢
        exact h
      · rw [if_neg hend] at h ⊢
        obtain ⟨rest, hrest, rfl⟩ := Option.map_eq_some_iff.mp h
        rw [ih hrest (Nat.le_of_succ_le_succ hle)]
        rfl
    · rw [if_neg hstart] at h ⊢
      exact h

/-- The windows of the strategy are those of the loop. -/
theorem windows_eq {α : Type} {ws : List α} (hstride : 0 < stride) {start rounds : Nat}
    {spans : List Span} (h : slidingLoop size stride ws.length rounds start = some spans) :
    windows size stride (ws.drop start) = spans.map (cut ws) := by
  induction rounds generalizing start spans with
  | zero =>
    by_cases hstart : start < ws.length
    · rw [slidingLoop, if_pos hstart] at h
      cases h
    · rw [slidingLoop, if_neg hstart] at h
      cases h
      rw [List.drop_of_length_le (Nat.le_of_not_lt hstart)]
      rfl
  | succ rounds ih =>
    rw [slidingLoop] at h
    by_cases hstart : start < ws.length
    · have hne : ws.drop start ≠ [] := by
        intro hnil
        have hlength := congrArg List.length hnil
        rw [List.length_drop, List.length_nil] at hlength
        omega
      have hcut : (ws.drop start).take size = cut ws (start, min (start + size) ws.length) := by
        rw [cut, List.drop_take, List.take_eq_take_iff, List.length_drop]
        omega
      rw [if_pos hstart] at h
      dsimp only at h
      rw [Chunks.windows_of_ne_nil hstride hne, hcut, List.length_drop]
      by_cases hend : start + size ≥ ws.length
      · rw [if_pos hend] at h
        cases h
        rw [if_pos (by omega)]
        rfl
      · rw [if_neg hend] at h
        obtain ⟨rest, hrest, rfl⟩ := Option.map_eq_some_iff.mp h
        rw [if_neg (by omega), List.drop_drop, ih hrest]
        rfl
    · rw [if_neg hstart] at h
      cases h
      rw [List.drop_of_length_le (Nat.le_of_not_lt hstart)]
      rfl

theorem From.slides {overlap : Nat} {spans : List Span} (h : From size (size - overlap) n 0 spans)
    (hoverlap : overlap < size) : Slides size overlap n spans where
  bounded := h.bounded
  first := fun span hspan => (h.first span hspan).1
  last := h.last
  shares := h.apart.imp fun a b hab => by omega
  some_window := h.some_window
  covered := fun i hi => h.covered (Nat.sub_le _ _) i (Nat.zero_le i) hi

end Loop

section Strategy

theorem SlidingWindowChunkStrategy.windowSize_pos (windowSize : Int) (overlap : Option Int) :
    0 < (SlidingWindowChunkStrategy.init windowSize overlap).windowSize := by
  rw [SlidingWindowChunkStrategy.init]
  dsimp only
  omega

theorem SlidingWindowChunkStrategy.stride_le (windowSize : Int) (overlap : Option Int) :
    (SlidingWindowChunkStrategy.init windowSize overlap).stride ≤
      (SlidingWindowChunkStrategy.init windowSize overlap).windowSize := by
  rw [SlidingWindowChunkStrategy.stride, SlidingWindowChunkStrategy.init]
  dsimp only
  omega

/-- The texts of the strategy are cut from the words where the loop says. -/
theorem texts_eq (s : SlidingWindowChunkStrategy) (text : Text) {rounds : Nat} {spans : List Span}
    (h : slidingLoop s.windowSize s.stride (words text).length rounds 0 = some spans) :
    s.texts text = spans.map fun span => ([], join " ".toList (cut (words text) span)) := by
  rw [SlidingWindowChunkStrategy.texts, ← List.drop_zero (l := words text),
    windows_eq s.stride_pos h, List.map_map, List.drop_zero]
  rfl

theorem words_cut (text : Text) (span : Span) :
    words (join " ".toList (cut (words text) span)) = cut (words text) span := by
  refine words_join_space fun w hw => ?_
  exact word_of_mem_words (List.mem_of_mem_take (List.mem_of_mem_drop hw))

theorem words_makeChunks (chunkChecksum : Text → Text) (documentId : Text)
    (texts : List (Text × Text)) :
    (makeChunks chunkChecksum documentId texts).map (fun chunk => words chunk.text) =
      texts.map fun item => words item.2 := by
  conv_rhs => rw [← map_makeChunks chunkChecksum documentId texts, List.map_map]
  rfl

/--
**The loop ends for every window and overlap, and its windows cover every word; where the
overlap is less than the window they follow each other from the first word to the last,
share exactly the overlap and none lies within the one before it.**
-/
theorem sliding_chunks (chunkChecksum : Text → Text) (documentId text : Text) (windowSize : Int)
    (overlap : Option Int) :
    let s := SlidingWindowChunkStrategy.init windowSize overlap
    let n := (words text).length
    ∃ spans, (∀ rounds, n ≤ rounds → slidingLoop s.windowSize s.stride n rounds 0 = some spans) ∧
      (makeChunks chunkChecksum documentId (s.texts text)).map (fun chunk => words chunk.text) =
        spans.map (cut (words text)) ∧
      CoversAll n spans ∧
      ∀ shared : Int, overlap = some shared → 1 ≤ windowSize → 0 ≤ shared → shared < windowSize →
        Slides windowSize.toNat shared.toNat n spans := by
  intro s n
  have hsize : 0 < s.windowSize := SlidingWindowChunkStrategy.windowSize_pos windowSize overlap
  have hle : s.stride ≤ s.windowSize := SlidingWindowChunkStrategy.stride_le windowSize overlap
  obtain ⟨spans, hspans, hfrom⟩ :=
    slidingLoop_spec hsize s.stride_pos hle 0 n (Nat.le_of_eq (Nat.zero_add n).symm)
  refine ⟨spans, fun rounds hrounds => slidingLoop_mono hspans hrounds, ?_, ?_, ?_⟩
  · rw [words_makeChunks, texts_eq s text hspans, List.map_map]
    exact List.map_congr_left fun span _ => words_cut text span
  · exact fun i hi => hfrom.covered hle i (Nat.zero_le i) hi
  · rintro shared rfl hwindow hshared hless
    have hwindowSize : s.windowSize = windowSize.toNat :=
      congrArg Int.toNat (max_eq_right hwindow)
    have hstride : s.stride = windowSize.toNat - shared.toNat := by
      show (max 1 ((s.windowSize : Int) - max 0 shared)).toNat = windowSize.toNat - shared.toNat
      rw [hwindowSize]
      omega
    rw [hwindowSize, hstride] at hfrom
    exact hfrom.slides (by omega)

end Strategy

end OpenWrtCopilot.Ports.KnowledgeWindows
