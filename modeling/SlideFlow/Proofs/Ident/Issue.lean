/-
What a pool gives out over a whole history of calls. It is the stream of its twister, in order, and
exactly those identifiers are left out that were given out or reserved before (`Follows`). A pool
draws up to a limit; a larger one keeps every answer (`run_mono`), so that calls return under some
limit exactly if what they did follows the stream (`returns_iff_follows`). That no identifier is
given out twice, or after it was reserved, is read off from there (`Follows.issued_spec`).
-/
import SlideFlow.Proofs.Ident.Form
import SlideFlow.Proofs.Ident.Stream
import Mathlib.Data.Set.Insert
import Mathlib.Order.Bounds.Basic

namespace SlideFlow.Ident.Pool

/-! ## Calls -/

/-- A call to a pool. -/
inductive Call where
  | next
  | reserve (id : String)

/-- What a call did. -/
inductive Event where
  | issued (id : String)
  | reserved (id : String)

namespace Event

/-- The identifier that was given out or reserved. -/
def id : Event → String
  | issued id => id
  | reserved id => id

/-- The call that is answered so. -/
def call : Event → Call
  | issued _ => .next
  | reserved id => .reserve id

end Event

section Run

variable {σ : Type} [Source σ]

/-- Answers one call, with a limit on the draws. With the limit `attempts`, identifiers are given out
by `next`. -/
def step (limit : Nat) (p : Pool σ) : Call → Option (Event × Pool σ)
  | .next => do
    let (id, q) ← p.nextWithin limit
    some (.issued id, q)
  | .reserve id => some (.reserved id, p.reserve id)

/-- Answers calls one after the other, with a limit on the draws for each of them. -/
def run (limit : Nat) : List Call → Pool σ → Option (List Event × Pool σ)
  | [], p => some ([], p)
  | c :: calls, p => do
    let (e, p) ← p.step limit c
    let (history, p) ← run limit calls p
    some (e :: history, p)

/-- All calls return, after whatever number of draws, and this is what they did. -/
def Returns (p : Pool σ) (calls : List Call) (history : List Event) : Prop :=
  ∃ limit q, run limit calls p = some (history, q)

theorem step_next_eq_some_iff {limit : Nat} {p q : Pool σ} {e : Event} :
    p.step limit .next = some (e, q) ↔ ∃ id source,
      search p.taken limit p.source = some (id, source) ∧ e = .issued id ∧
        q = { source, taken := id :: p.taken } := by
  simp only [step, nextWithin, Option.bind_eq_bind, Option.bind_eq_some_iff, Prod.exists,
    Option.some.injEq, Prod.mk.injEq]
  constructor
  · rintro ⟨id, q', ⟨found, source, hs, rfl, rfl⟩, rfl, rfl⟩
    exact ⟨found, source, hs, rfl, rfl⟩
  · rintro ⟨id, source, hs, rfl, rfl⟩
    exact ⟨id, _, ⟨id, source, hs, rfl, rfl⟩, rfl, rfl⟩

theorem run_cons_eq_some_iff {limit : Nat} {c : Call} {calls : List Call} {p q : Pool σ}
    {history : List Event} : run limit (c :: calls) p = some (history, q) ↔
      ∃ e p' rest, p.step limit c = some (e, p') ∧ run limit calls p' = some (rest, q) ∧
        history = e :: rest := by
  simp only [run, Option.bind_eq_bind, Option.bind_eq_some_iff, Prod.exists, Option.some.injEq,
    Prod.mk.injEq]
  constructor
  · rintro ⟨e, p', hstep, rest, q', hrun, rfl, rfl⟩
    exact ⟨e, p', rest, hstep, hrun, rfl⟩
  · rintro ⟨e, p', rest, hstep, hrun, rfl⟩
    exact ⟨e, p', hstep, rest, q, hrun, rfl, rfl⟩

/-! ## Limits -/

theorem search_mono {taken : List String} {found : String × σ} :
    ∀ {limit limit' : Nat} {s : σ}, limit ≤ limit' → search taken limit s = some found →
      search taken limit' s = some found
  | 0, _, _, _, h => by cases h
  | limit + 1, 0, _, hle, _ => by omega
  | limit + 1, limit' + 1, s, hle, h => by
    unfold search at h ⊢
    obtain ⟨⟨raw, s'⟩, hdraw, h⟩ := Option.bind_eq_some_iff.1 h
    refine Option.bind_eq_some_iff.2 ⟨(raw, s'), hdraw, ?_⟩
    simp only at h ⊢
    split
    · rename_i hraw
      rw [if_pos hraw] at h
      exact search_mono (by omega) h
    · rename_i hraw
      rwa [if_neg hraw] at h

theorem step_mono {limit limit' : Nat} (hle : limit ≤ limit') {p q : Pool σ} {c : Call} {e : Event}
    (h : p.step limit c = some (e, q)) : p.step limit' c = some (e, q) := by
  cases c with
  | next =>
    obtain ⟨id, source, hs, he, hq⟩ := step_next_eq_some_iff.1 h
    exact step_next_eq_some_iff.2 ⟨id, source, search_mono hle hs, he, hq⟩
  | reserve id => exact h

theorem run_mono {limit limit' : Nat} (hle : limit ≤ limit') :
    ∀ {calls : List Call} {p q : Pool σ} {history : List Event},
      run limit calls p = some (history, q) → run limit' calls p = some (history, q)
  | [], _, _, _, h => h
  | c :: calls, p, q, history, h => by
    obtain ⟨e, p', rest, hstep, hrun, hhistory⟩ := run_cons_eq_some_iff.1 h
    exact run_cons_eq_some_iff.2 ⟨e, p', rest, step_mono hle hstep, run_mono hle hrun, hhistory⟩

theorem returns_nil_iff {p : Pool σ} {history : List Event} :
    p.Returns [] history ↔ history = [] := by
  constructor
  · rintro ⟨limit, q, h⟩
    cases h
    rfl
  · rintro rfl
    exact ⟨0, p, rfl⟩

/-- The calls may each have a limit of their own, since the largest one serves all. -/
theorem returns_cons_iff {p : Pool σ} {c : Call} {calls : List Call} {history : List Event} :
    p.Returns (c :: calls) history ↔ ∃ limit e q rest,
      p.step limit c = some (e, q) ∧ q.Returns calls rest ∧ history = e :: rest := by
  constructor
  · rintro ⟨limit, last, h⟩
    obtain ⟨e, q, rest, hstep, hrun, hhistory⟩ := run_cons_eq_some_iff.1 h
    exact ⟨limit, e, q, rest, hstep, ⟨limit, last, hrun⟩, hhistory⟩
  · rintro ⟨limit, e, q, rest, hstep, ⟨limit', last, hrun⟩, hhistory⟩
    exact ⟨max limit limit', last, run_cons_eq_some_iff.2 ⟨e, q, rest,
      step_mono (Nat.le_max_left _ _) hstep, run_mono (Nat.le_max_right _ _) hrun, hhistory⟩⟩

end Run

/-! ## Following a stream -/

/-- How far an event goes in a stream of identifiers. Reserving takes nothing from it. What is given
out is the first identifier from the place on that was not seen, and the place behind it is next. -/
inductive Takes (stream : Nat → String) (seen : Set String) (start : Nat) : Event → Nat → Prop
  | reserved (id : String) : Takes stream seen start (.reserved id) start
  | issued {k : Nat} (first : IsLeast {n | start ≤ n ∧ stream n ∉ seen} k) :
    Takes stream seen start (.issued (stream k)) (k + 1)

/-- The events of a history take their identifiers from a stream, one after the other, and what one
of them gave out or reserved is seen by all that come later. -/
def Follows (stream : Nat → String) : Nat → Set String → List Event → Prop
  | _, _, [] => True
  | start, seen, e :: rest =>
    ∃ stop, Takes stream seen start e stop ∧ Follows stream stop (insert e.id seen) rest

/-- What is given out comes from the stream and was not given out or reserved before. -/
theorem Follows.issued_spec {stream : Nat → String} {id : String} {after : List Event} :
    ∀ {before : List Event} {start : Nat} {seen : Set String},
      Follows stream start seen (before ++ .issued id :: after) →
        id ∉ seen ∧ id ∉ before.map Event.id ∧ ∃ k, id = stream k
  | [], start, seen, h => by
    obtain ⟨stop, htakes, -⟩ := h
    cases htakes with
    | issued first => exact ⟨first.1.2, List.not_mem_nil, _, rfl⟩
  | e :: before, start, seen, h => by
    obtain ⟨stop, -, hrest⟩ := h
    obtain ⟨hseen, hbefore, hstream⟩ := Follows.issued_spec hrest
    rw [Set.mem_insert_iff, not_or] at hseen
    refine ⟨hseen.2, fun hmem => ?_, hstream⟩
    rcases List.mem_cons.1 hmem with heq | hmem
    · exact hseen.1 heq
    · exact hbefore hmem

/-! ## Histories of the pool of a twister -/

/-- The identifiers of a twister as they are written. -/
def texts (t : Twister) (n : Nat) : String := (t.stream n).text

/-- A search ends at the first identifier that is not taken, if the limit allows to come there. -/
theorem search_eq_some_iff {t : Twister} {taken : List String} {id : String} {s : Twister} :
    ∀ {limit start : Nat}, search taken limit (t.after start) = some (id, s) ↔
      ∃ k, IsLeast {n | start ≤ n ∧ texts t n ∉ taken} k ∧ k < start + limit ∧
        id = texts t k ∧ s = t.after (k + 1)
  | 0, start => by
    constructor
    · intro h
      cases h
    · rintro ⟨k, hleast, hk, -⟩
      have := hleast.1.1
      omega
  | limit + 1, start => by
    have hdraw : search taken (limit + 1) (t.after start) = if texts t start ∈ taken then
        search taken limit (t.after (start + 1)) else some (texts t start, t.after (start + 1)) := by
      rw [search, t.draw_after]
      rfl
    by_cases hfirst : texts t start ∈ taken
    · -- the identifier at the place is taken: the search goes on behind it
      have hplaces :
          {n | start ≤ n ∧ texts t n ∉ taken} = {n | start + 1 ≤ n ∧ texts t n ∉ taken} := by
        refine Set.ext fun n => ⟨fun ⟨hn, hnew⟩ => ⟨?_, hnew⟩, fun ⟨hn, hnew⟩ => ⟨by omega, hnew⟩⟩
        have hne : n ≠ start := fun h => hnew (h ▸ hfirst)
        omega
      rw [hdraw, if_pos hfirst, search_eq_some_iff, hplaces, Nat.add_right_comm, Nat.add_assoc]
    · have hleast : IsLeast {n | start ≤ n ∧ texts t n ∉ taken} start :=
        ⟨⟨Nat.le_refl _, hfirst⟩, fun n hn => hn.1⟩
      rw [hdraw, if_neg hfirst]
      constructor
      · intro h
        cases h
        exact ⟨start, hleast, by omega, rfl, rfl⟩
      · rintro ⟨k, hk, -, rfl, rfl⟩
        rw [hk.unique hleast]

/-- The pool has drawn the identifiers of a twister up to a place, and these are taken. -/
structure At (t : Twister) (start : Nat) (seen : Set String) (p : Pool Twister) : Prop where
  source : p.source = t.after start
  taken : {id | id ∈ p.taken} = seen

section Step

variable {t : Twister} {start : Nat} {seen : Set String} {p : Pool Twister}

theorem At.reserve (hp : At t start seen p) (id : String) :
    At t start (insert id seen) (p.reserve id) := by
  obtain ⟨hsource, rfl⟩ := hp
  unfold Pool.reserve
  split
  · rename_i hid
    have hmem : id ∈ {x | x ∈ p.taken} := hid
    exact ⟨hsource, (Set.insert_eq_of_mem hmem).symm⟩
  · exact ⟨hsource, Set.ext fun _ => List.mem_cons⟩

theorem At.issue (hp : At t start seen p) (k : Nat) (id : String) :
    At t k (insert id seen) { source := t.after k, taken := id :: p.taken } := by
  obtain ⟨-, rfl⟩ := hp
  exact ⟨rfl, Set.ext fun _ => List.mem_cons⟩

theorem takes_of_step (hp : At t start seen p) {limit : Nat} {c : Call} {e : Event}
    {q : Pool Twister} (h : p.step limit c = some (e, q)) :
    e.call = c ∧ ∃ stop, Takes (texts t) seen start e stop ∧ At t stop (insert e.id seen) q := by
  cases c with
  | next =>
    obtain ⟨id, source, hsearch, rfl, rfl⟩ := step_next_eq_some_iff.1 h
    rw [hp.source] at hsearch
    obtain ⟨k, hleast, -, rfl, rfl⟩ := search_eq_some_iff.1 hsearch
    exact ⟨rfl, k + 1, .issued (hp.taken ▸ hleast), hp.issue (k + 1) _⟩
  | reserve id =>
    cases h
    exact ⟨rfl, start, .reserved id, hp.reserve id⟩

theorem step_of_takes (hp : At t start seen p) {e : Event} {stop : Nat}
    (h : Takes (texts t) seen start e stop) :
    ∃ limit q, p.step limit e.call = some (e, q) ∧ At t stop (insert e.id seen) q := by
  cases h with
  | reserved id => exact ⟨0, p.reserve id, rfl, hp.reserve id⟩
  | @issued k first =>
    rw [← hp.taken] at first
    have hsearch : search p.taken (k + 1) p.source = some (texts t k, t.after (k + 1)) := by
      rw [hp.source]
      exact search_eq_some_iff.2 ⟨k, first, by omega, rfl, rfl⟩
    exact ⟨k + 1, _, step_next_eq_some_iff.2 ⟨_, _, hsearch, rfl, rfl⟩, hp.issue (k + 1) _⟩

end Step

/-- Calls to a pool return exactly with the histories that follow the stream from the place where
the pool is. -/
theorem returns_iff_follows {t : Twister} : ∀ {calls : List Call} {history : List Event}
    {start : Nat} {seen : Set String} {p : Pool Twister}, At t start seen p →
      (p.Returns calls history ↔
        history.map Event.call = calls ∧ Follows (texts t) start seen history)
  | [], history, start, seen, p, _ => by
    rw [returns_nil_iff, List.map_eq_nil_iff]
    exact ⟨fun h => ⟨h, h ▸ trivial⟩, And.left⟩
  | c :: calls, history, start, seen, p, hp => by
    rw [returns_cons_iff]
    constructor
    · rintro ⟨limit, e, q, rest, hstep, hrest, rfl⟩
      obtain ⟨hcall, stop, htakes, hq⟩ := takes_of_step hp hstep
      obtain ⟨hcalls, hfollows⟩ := (returns_iff_follows hq).1 hrest
      exact ⟨by rw [List.map_cons, hcall, hcalls], stop, htakes, hfollows⟩
    · rintro ⟨hcalls, hfollows⟩
      obtain ⟨e, rest, rfl, rfl, hrest⟩ := List.map_eq_cons_iff.1 hcalls
      obtain ⟨stop, htakes, hfollows⟩ := hfollows
      obtain ⟨limit, q, hstep, hq⟩ := step_of_takes hp htakes
      exact ⟨limit, e, q, rest, hstep, (returns_iff_follows hq).2 ⟨hrest, hfollows⟩, rfl⟩

/-- Whatever calls are made to the pool of a seed and return: what is given out is the stream of the
seed, less what was given out or reserved before. So no identifier is given out that was given out or
reserved before, and all have the form of identifiers. -/
theorem issued_follow_stream (seed : Int) (calls : List Call) (history : List Event) :
    ((ofSeed seed).Returns calls history ↔
      history.map Event.call = calls ∧ Follows (texts (Twister.ofSeed seed)) 0 ∅ history) ∧
    ((ofSeed seed).Returns calls history → ∀ before id after,
      history = before ++ .issued id :: after → id ∉ before.map Event.id ∧ WellFormed id) := by
  have hstart : At (Twister.ofSeed seed) 0 ∅ (ofSeed seed) :=
    ⟨rfl, Set.ext fun _ => iff_of_false List.not_mem_nil (Set.notMem_empty _)⟩
  have hiff : (ofSeed seed).Returns calls history ↔
      history.map Event.call = calls ∧ Follows (texts (Twister.ofSeed seed)) 0 ∅ history :=
    returns_iff_follows hstart
  refine ⟨hiff, fun hreturns before id after hhistory => ?_⟩
  obtain ⟨-, hfollows⟩ := hiff.1 hreturns
  rw [hhistory] at hfollows
  obtain ⟨-, hbefore, k, rfl⟩ := hfollows.issued_spec
  exact ⟨hbefore, RawId.wellFormed_text _⟩

end SlideFlow.Ident.Pool
