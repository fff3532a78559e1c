import Sceptre.Threads.Source

namespace Sceptre

open Foundation

namespace BoundedRawQueue

/-- What a queue holds and has given away, against what was put in it since it was created. -/
structure Accounts {α : Type} (q : BoundedRawQueue α) (ops : List (Op α)) : Prop where
  contents : (run ops q).2.items <:+ puts ops
  bounded : (run ops q).2.items.length ≤ q.maxsize
  ordered : List.Sublist ((run ops q).1 ++ (run ops q).2.items) (puts ops)
  dropped : (run ops q).2.dropped = (evictions ops q).length
  total : (puts ops).length = (run ops q).1.length + (run ops q).2.dropped + (run ops q).2.items.length
  partition : List.Perm (puts ops) ((run ops q).1 ++ evictions ops q ++ (run ops q).2.items)
  last : List.Sublist (evictions ops q) (puts ops).dropLast

variable {α : Type} {q : BoundedRawQueue α}

theorem accounts {maxsize : Int} (created : new maxsize = .ok q) (ops : List (Op α)) : q.Accounts ops := by
  obtain ⟨tracks, -⟩ := new_tracks created
  obtain ⟨f, final, entered, returned, evicted⟩ := tracks.run ops
  have contents := final.contents
  have size := final.dropped
  have last := final.last
  rw [Fifo.entered_empty, List.nil_append] at entered
  rw [Fifo.gone_empty, List.nil_append] at returned evicted
  rw [evicted] at size last
  rw [entered] at last
  refine ⟨?_, ?_, ?_, size.symm, ?_, ?_, last⟩
  · rw [← contents, ← entered]
    exact f.contents_isSuffix
  · have bounded := (run ops q).2.bounded
    rwa [run_maxsize] at bounded
  · rw [← returned, ← contents, ← entered]
    exact f.gone_sublist .returned
  · rw [← entered, f.entered_length, returned, evicted, contents, size]
  · rw [← entered, ← returned, ← evicted, ← contents]
    exact f.entered_perm

theorem Accounts.kept {ops : List (Op α)} (accounts : q.Accounts ops) (kept : (run ops q).2.dropped = 0) :
    (run ops q).1 ++ (run ops q).2.items = puts ops := by
  apply accounts.ordered.eq_of_length
  have total := accounts.total
  rw [List.length_append]
  omega

theorem Accounts.sentinel {ops : List (Op α)} (accounts : q.Accounts ops) {earlier : List α} {last : α}
    (split : puts ops = earlier ++ [last]) (once : last ∉ earlier) :
    last ∉ evictions ops q ∧ ∀ before after, (run ops q).1 = before ++ last :: after →
      after = [] ∧ (run ops q).2.items = [] ∧ List.Perm (puts ops) (before ++ evictions ops q ++ [last]) := by
  have kept : last ∉ evictions ops q := by
    intro evicted
    have early := accounts.last.subset evicted
    rw [split, List.dropLast_concat] at early
    exact once early
  refine ⟨kept, ?_⟩
  intro before after returned
  have ordered := accounts.ordered
  rw [returned, split] at ordered
  -- what follows the sentinel would have to follow it among the items put
  have rest : after ++ (run ops q).2.items = [] := by
    have tail : List.Sublist ((before ++ [last]) ++ (after ++ (run ops q).2.items)) (earlier ++ [last]) := by
      simpa using ordered
    obtain ⟨left, right, whole, front, back⟩ := List.append_sublist_iff.mp tail
    have inLeft : last ∈ left := front.subset (List.mem_append_right _ (List.mem_singleton.mpr rfl))
    rcases List.eq_nil_or_concat' right with nil | ⟨more, final, concat⟩
    · rw [nil] at back
      exact List.sublist_nil.mp back
    · rw [concat, ← List.append_assoc] at whole
      have same := (List.append_inj' whole rfl).1
      rw [same] at once
      exact absurd (List.mem_append_left _ inLeft) once
  obtain ⟨none, empty⟩ := List.append_eq_nil_iff.mp rest
  refine ⟨none, empty, ?_⟩
  have partition := accounts.partition
  rw [returned, none, empty, List.append_nil] at partition
  refine partition.trans ?_
  rw [List.append_assoc, List.append_assoc]
  exact List.Perm.append_left _ List.perm_append_comm

end BoundedRawQueue

open BoundedRawQueue

/-- Lossy, but accounted for: over any interleaving of its operations the queue holds the items put last, gives
    them out in order, and counts each item it evicts; a replay's SHUTDOWN is put once, is never evicted and
    comes out after everything else. -/
theorem lossy_queue_accounts (maxsize : Int) :
    (∀ (α : Type) (q : BoundedRawQueue α), new maxsize = .ok q → ∀ ops : List (Op α),
      (run ops q).2.items <:+ puts ops ∧ ((run ops q).2.items.length : Int) ≤ maxsize ∧
      List.Sublist ((run ops q).1 ++ (run ops q).2.items) (puts ops) ∧
      (run ops q).2.dropped = (evictions ops q).length ∧
      (puts ops).length = (run ops q).1.length + (run ops q).2.dropped + (run ops q).2.items.length ∧
      ∀ before op after, ops = before ++ op :: after →
        ((run before q).2.evicts op ≠ none → ((run before q).2.items.length : Int) = maxsize) ∧
        ((run before q).2.evicts op).toList ++ ((run before q).2.perform op).1.toList ++
          ((run before q).2.perform op).2.items = (run before q).2.items ++ op.item?.toList) ∧
    ∀ (pace : Pace) (actions : List SourceAction) (pc : ReplayPc),
      runs (ReplayPc.step pace) .loading actions = some pc →
      ∀ q : BoundedRawQueue RawItem, new maxsize = .ok q → ∀ ops : List (Op RawItem),
        puts ops = actions.filterMap SourceAction.item? →
        (puts ops).count .shutdown = (if pc = .terminated then 1 else 0) ∧ .shutdown ∉ evictions ops q ∧
        ∀ before after, (run ops q).1 = before ++ .shutdown :: after →
          after = [] ∧ (run ops q).2.items = [] ∧ List.Perm (puts ops) (before ++ evictions ops q ++ [.shutdown]) := by
  constructor
  · intro α q created ops
    have accounts := q.accounts created ops
    have size := (new_tracks created).2
    refine ⟨accounts.contents, ?_, accounts.ordered, accounts.dropped, accounts.total, ?_⟩
    · have bounded := accounts.bounded
      omega
    · intro before op after split
      have sized := run_maxsize before q
      obtain ⟨full, conserved⟩ := (run before q).2.perform_items op
      exact ⟨fun some => by rw [full some, sized, size], conserved⟩
  · intro pace actions pc ran q created ops follows
    have accounts := q.accounts created ops
    obtain ⟨sent, puts'⟩ := ReplayPc.runs_puts ran
    rw [← follows] at puts'
    have fresh : RawItem.shutdown ∉ sent.map RawItem.datagram := by simp
    by_cases last : pc = .terminated
    · rw [if_pos last] at puts' ⊢
      refine ⟨?_, accounts.sentinel puts' fresh⟩
      rw [puts', List.count_append, List.count_eq_zero.mpr fresh]
      rfl
    · rw [if_neg last, List.append_nil] at puts'
      rw [if_neg last]
      have absent : RawItem.shutdown ∉ puts ops := by
        rw [puts']
        exact fresh
      refine ⟨List.count_eq_zero.mpr absent, ?_, ?_⟩
      · intro evicted
        exact absent (List.dropLast_subset _ (accounts.last.subset evicted))
      · intro before after returned
        have among :=
          accounts.ordered.subset (List.mem_append_left _ (returned ▸ List.mem_append_right _ (List.mem_cons_self ..)))
        exact absurd among absent

end Sceptre
