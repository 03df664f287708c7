/-
Where a log is divided, in whatever way its entries are judged.  The judgement need not last along
the log: of a time that is no number nothing is ever too old, and it is neither earlier nor later
than the times around it, so that expired entries may stand behind live ones.
-/
import LiveFeed.Proofs.Log.Window

namespace LiveFeed.Log

/-- However entries are judged, the search among them comes to an end at a boundary, which depends
on nothing but the judgement; a log at a time at which all its entries can be judged is divided
there.  If a live entry stays live to the end, the boundary is the number of the expired entries,
and there is no other one. -/
theorem search_finds_boundary (entries : List Entry) (live : Entry → Bool) :
    ∃ index, IsBoundary live entries index ∧
      (∀ {ε : Type} (test : Nat → Except ε Bool),
        (∀ i e, entries[i]? = some e → test i = .ok (live e)) →
          Boundary.search test 0 entries.length = .ok index) ∧
      (∀ (log : Log) (now : Value), log.entries = entries → log.Judged now live →
        log.boundary now = .ok index) ∧
      (Lasting live entries → index = (entries.filter fun e => !live e).length ∧
        ∀ other, IsBoundary live entries other → other = index) := by
  -- One test finds the index, and every other test that agrees with it goes the same way.
  let judge : Nat → Except Value.Fault Bool := fun i => .ok (entries[i]?.all live)
  have hjudge : ∀ i e, entries[i]? = some e → judge i = .ok (live e) := by
    intro i e he
    simp only [judge, he, Option.all_some]
  obtain ⟨index, hfound, hbound⟩ := search_isBoundary_of_judges hjudge
  have hsame {ε : Type} (test : Nat → Except ε Bool)
      (htest : ∀ i e, entries[i]? = some e → test i = .ok (live e)) :
      Boundary.search test 0 entries.length = .ok index := by
    refine Boundary.search_congr ?_ hfound
    intro i _ hi
    have he : entries[i]? = some entries[i] := List.getElem?_eq_getElem hi
    exact ⟨live entries[i], hjudge i _ he, htest i _ he⟩
  refine ⟨index, hbound, hsame, ?_, ?_⟩
  · rintro log now rfl hjudged
    rw [boundary, hsame (log.isLiveAt now) fun _ _ he => hjudged.isLiveAt he, mapError_ok]
  · intro hlasting
    have hindex := hbound.eq_of_lasting hlasting
    refine ⟨hindex, ?_⟩
    intro other hother
    rw [hother.eq_of_lasting hlasting, hindex]

/-- The first of three times is no number, and the second one has expired: the log may be built, and
is divided behind the second entry, but the beginning is a boundary as well. -/
theorem search_finds_boundary_of_no_number :
    let entries : List Entry :=
      [⟨[1], .float (Binary64.nan false)⟩, ⟨[2], .int 0⟩, ⟨[3], .int 15⟩]
    let log : Log := ⟨.int 10, entries⟩
    let live : Entry → Bool := fun e => e.payload != [2]
    Log.ofEntries? (.int 10) entries = .ok log ∧ log.Judged (.int 20) live ∧
      log.boundary (.int 20) = .ok 2 ∧ IsBoundary live entries 2 ∧ IsBoundary live entries 0 := by
  intro entries log live
  have hjudged : log.Judged (.int 20) live := by
    intro e he
    simp only [log, entries, List.mem_cons, List.not_mem_nil, or_false] at he
    rcases he with rfl | rfl | rfl
    · rfl
    · rfl
    · rfl
  obtain ⟨index, hbound, -, hdivided, -⟩ := search_finds_boundary entries live
  have hfound : log.boundary (.int 20) = .ok index := hdivided log (.int 20) rfl hjudged
  have hsecond : log.boundary (.int 20) = .ok 2 := toOption_eq_some_iff.mp (by decide +kernel)
  cases hfound.symm.trans hsecond
  refine ⟨rfl, hjudged, hsecond, hbound, Nat.zero_le 3, ?_, ?_⟩
  · rintro e hpos -
    exact absurd hpos (Nat.lt_irrefl 0)
  · rintro e he
    cases he
    rfl

end LiveFeed.Log
