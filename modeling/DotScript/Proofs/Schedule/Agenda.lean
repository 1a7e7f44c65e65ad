import DotScript.Proofs.Schedule.Local
import Mathlib.Data.List.Perm.Basic

/-!
# What is left to do

An agenda lists the threads of a session that run and the calls that wait. Its items go on
independently of each other: what one of them prints, reports and spawns is its own affair. So what
an agenda comes to does not depend on the order in which its items are taken up, up to the order of
what different threads show.

* `Yield`: what becomes visible, and `Yield.Same` for yields that differ in the order of lines of
  different threads, of messages and of ends only;
* `Item.Advances`: one move of an item, with its yield and what it leaves to do;
* `Plays is n y`: in `n` moves all is done, with the yield `y`;
* `Plays.unique`, `Plays.perm`: the yield is determined by the items, whatever their order.
-/

namespace DotScript.Machine

open DotScript.Files

/-! ## Yields -/

/-- The lines of one thread, in their order. -/
def linesOf (id : ThreadId) (lines : List (ThreadId × String)) : List (ThreadId × String) :=
  lines.filter (·.1 == id)

/-- What becomes visible of running threads. -/
@[ext]
structure Yield where
  /-- Printed lines, each with the thread that printed it. -/
  lines : List (ThreadId × String) := []
  /-- The messages of failed spawned calls. -/
  messages : List String := []
  /-- The result of the main thread, when it ends, and its globals. -/
  ends : List (Except RuntimeError Value × Table String Value) := []

namespace Yield

/-- One yield after the other. -/
protected def append (y z : Yield) : Yield :=
  ⟨y.lines ++ z.lines, y.messages ++ z.messages, y.ends ++ z.ends⟩

instance : Append Yield := ⟨Yield.append⟩

variable {x y z x' y' z' : Yield}

@[simp] theorem lines_append (y z : Yield) : (y ++ z).lines = y.lines ++ z.lines := rfl

@[simp] theorem messages_append (y z : Yield) :
    (y ++ z).messages = y.messages ++ z.messages := rfl

@[simp] theorem ends_append (y z : Yield) : (y ++ z).ends = y.ends ++ z.ends := rfl

theorem append_assoc (x y z : Yield) : x ++ y ++ z = x ++ (y ++ z) := by
  ext1 <;> simp

@[simp] theorem empty_append (y : Yield) : ({} : Yield) ++ y = y := by
  ext1 <;> simp

@[simp] theorem append_empty (y : Yield) : y ++ ({} : Yield) = y := by
  ext1 <;> simp

/-- Each thread shows the same, and so do all of them together. -/
structure Same (y z : Yield) : Prop where
  lines : ∀ id, linesOf id y.lines = linesOf id z.lines
  messages : y.messages.Perm z.messages
  ends : y.ends.Perm z.ends

theorem Same.refl (y : Yield) : Same y y := ⟨fun _ => rfl, .refl _, .refl _⟩

theorem Same.symm (h : Same y z) : Same z y :=
  ⟨fun id => (h.lines id).symm, h.messages.symm, h.ends.symm⟩

theorem Same.trans (h : Same x y) (h' : Same y z) : Same x z :=
  ⟨fun id => (h.lines id).trans (h'.lines id), h.messages.trans h'.messages,
    h.ends.trans h'.ends⟩

theorem Same.append (h : Same y y') (h' : Same z z') : Same (y ++ z) (y' ++ z') where
  lines id := by
    simp only [linesOf, lines_append, List.filter_append]
    exact congrArg₂ _ (h.lines id) (h'.lines id)
  messages := h.messages.append h'.messages
  ends := h.ends.append h'.ends

/-- Yields without a common thread may come in either order. -/
theorem Same.comm (h : ∀ l ∈ y.lines, ∀ l' ∈ z.lines, l.1 ≠ l'.1) : Same (y ++ z) (z ++ y) where
  lines id := by
    simp only [linesOf, lines_append, List.filter_append]
    by_cases hy : ∃ l ∈ y.lines, l.1 = id
    · obtain ⟨l, hl, rfl⟩ := hy
      have hz : z.lines.filter (·.1 == l.1) = [] :=
        List.filter_eq_nil_iff.mpr fun l' hl' => by simpa using (h l hl l' hl').symm
      rw [hz, List.append_nil, List.nil_append]
    · have hy' : y.lines.filter (·.1 == id) = [] :=
        List.filter_eq_nil_iff.mpr fun l hl => by simpa using fun heq => hy ⟨l, hl, heq⟩
      rw [hy', List.append_nil, List.nil_append]
  messages := List.perm_append_comm
  ends := List.perm_append_comm

/-- If each thread prints the same lines, then the same lines are printed. -/
theorem perm_of_linesOf {ls ls' : List (ThreadId × String)}
    (h : ∀ id, linesOf id ls = linesOf id ls') : ls.Perm ls' := by
  refine List.perm_iff_count.mpr fun l => ?_
  have hcount : ∀ ks : List (ThreadId × String), (linesOf l.1 ks).count l = ks.count l := fun ks =>
    List.count_filter (beq_self_eq_true l.1)
  rw [← hcount ls, ← hcount ls', h]

end Yield

/-! ## Items -/

/-- A thread that runs, possibly the main thread, or a spawned call that waits. -/
inductive Item
  | running (main : Bool) (t : Thread)
  | waiting (job : Job)

/-- Whether it is the main thread. -/
def Item.isMain : Item → Bool
  | running main _ => main
  | waiting _ => false

/-- What a signal of a thread shows. -/
def Signal.yield (id : ThreadId) : Signal → Yield
  | line text => { lines := [(id, text)] }
  | _ => {}

/-- What a signal leaves to do. -/
def Signal.items : Signal → List Item
  | spawn job => [.waiting job]
  | _ => []

/-- What the end of a thread shows: that of the main thread its result and globals, that of a
spawned call its failure. -/
def Yield.ofEnd (main : Bool) (r : Except RuntimeError Value) (t : Thread) : Yield :=
  if main then { ends := [(r, t.globals)] }
  else
    match r with
    | .ok _ => {}
    | .error e => { messages := [e.message] }

/-- One move of an item. -/
inductive Item.Advances (host : Host) (files : FileTree) : Item → Yield → List Item → Prop
  | run {main t s t'} (h : Machine.Advances host files t s (.running t')) :
    Advances host files (.running main t) (s.yield t.id) (.running main t' :: s.items)
  | finish {main t s v t'} (h : Machine.Advances host files t s (.finished v t')) :
    Advances host files (.running main t) (s.yield t.id ++ .ofEnd main (.ok v) t') s.items
  | fail {main t s e t'} (h : Machine.Advances host files t s (.failed e t')) :
    Advances host files (.running main t) (s.yield t.id ++ .ofEnd main (.error e) t'.abandon)
      s.items
  | launch {t} : Advances host files (.waiting (.script t)) {} [.running false t]
  | native {n args v} (h : ∀ w, host.call n.builtin args w = (.ok v, w)) :
    Advances host files (.waiting (.native n args)) {} []
  | nativeFail {n args message} (h : ∀ w, host.call n.builtin args w = (.error message, w)) :
    Advances host files (.waiting (.native n args))
      { messages := [(RuntimeError.native n.name message).message] } []

/-- In `n` moves all is done, with the yield `y`. -/
inductive Plays (host : Host) (files : FileTree) : List Item → Nat → Yield → Prop
  | nil : Plays host files [] 0 {}
  | cons {i is y new n y' m z} (h : i.Advances host files y new) (hnew : Plays host files new n y')
    (hrest : Plays host files is m z) : Plays host files (i :: is) (n + m + 1) (y ++ y' ++ z)

section
variable {host : Host} {files : FileTree} {i j : Item} {is is' js : List Item} {new new' : List Item}
  {n m : Nat} {y y' z : Yield} {t t' u : Thread} {s : Signal} {id : ThreadId}

/-- An item has one move at most. -/
theorem Item.Advances.unique (h : i.Advances host files y new) (h' : i.Advances host files y' new') :
    y = y' ∧ new = new' := by
  cases h with
  | run h | finish h | fail h =>
    cases h' with
    | run h' | finish h' | fail h' =>
      obtain ⟨rfl, hturn⟩ := h.unique h'
      cases hturn <;> exact ⟨rfl, rfl⟩
  | launch =>
    cases h'
    exact ⟨rfl, rfl⟩
  | native h | nativeFail h =>
    cases h' with
    | native h' | nativeFail h' =>
      have heq := (h {}).symm.trans (h' {})
      cases heq <;> exact ⟨rfl, rfl⟩

/-! ## Names -/

/-- The names that a thread and the calls it is going to spawn may have: its own, and those that
descend from the ones it has not given yet. -/
def Thread.Owns (t : Thread) (id : ThreadId) : Prop :=
  id = t.id ∨ ∃ k, t.spawned ≤ k ∧ (k :: t.id) <:+ id

/-- The names that belong to an item. -/
def Item.Owns : Item → ThreadId → Prop
  | running _ t, id | waiting (.script t), id => t.Owns id
  | waiting (.native _ _), _ => False

/-- Items without a common name. -/
def Item.Apart (i j : Item) : Prop := ∀ id, i.Owns id → ¬ j.Owns id

theorem Item.Apart.symm (h : i.Apart j) : j.Apart i := fun id hj hi => h id hi hj

theorem Thread.Owns.of_next (hfrom : s.From t t') (h : t'.Owns id) : t.Owns id := by
  rcases h with rfl | ⟨k, hk, hsuffix⟩
  · exact .inl hfrom.id
  · have hle : t.spawned ≤ t'.spawned := hfrom.spawned ▸ Nat.le_add_right ..
    exact .inr ⟨k, Nat.le_trans hle hk, hfrom.id ▸ hsuffix⟩

theorem Thread.Owns.suffix_of_child (hid : u.id = t.spawned :: t.id) (h : u.Owns id) :
    (t.spawned :: t.id) <:+ id := by
  rcases h with rfl | ⟨k, -, hsuffix⟩
  · exact hid ▸ List.suffix_refl _
  · rw [← hid]
    exact (List.suffix_cons ..).trans hsuffix

/-- The names of a spawned call are no longer to be given. -/
theorem Thread.not_owns_of_child (hid : u.id = t.spawned :: t.id) (hfrom : s.From t t')
    (hcalls : s.calls = 1) (h : u.Owns id) : ¬ t'.Owns id := by
  have hchild := h.suffix_of_child hid
  rintro (rfl | ⟨k, hk, hsuffix⟩)
  · have hlength := hchild.length_le
    rw [hfrom.id, List.length_cons] at hlength
    omega
  · have heq : (k :: t'.id) = t.spawned :: t.id :=
      (List.suffix_of_suffix_length_le hsuffix hchild (by simp [hfrom.id])).eq_of_length
        (by simp [hfrom.id])
    have hspawned := hfrom.spawned
    injection heq with hk'
    omega

theorem Signal.owns_of_mem_yield {l : ThreadId × String} (hl : l ∈ (s.yield t.id).lines) :
    t.Owns l.1 := by
  cases s with
  | line text =>
    cases List.mem_singleton.mp hl
    exact .inl rfl
  | _ => exact absurd hl List.not_mem_nil

theorem Signal.owns_of_mem_items (hfrom : s.From t t') (hj : j ∈ s.items) (h : j.Owns id) :
    t.Owns id ∧ ¬ t'.Owns id := by
  cases s with
  | spawn job =>
    cases List.mem_singleton.mp hj
    cases job with
    | script u =>
      obtain ⟨hid, -⟩ := hfrom.child u rfl
      exact ⟨.inr ⟨t.spawned, Nat.le_refl _, Thread.Owns.suffix_of_child hid h⟩,
        Thread.not_owns_of_child hid hfrom rfl h⟩
    | native => exact h.elim
  | _ => exact absurd hj List.not_mem_nil

theorem Signal.items_apart (s : Signal) : s.items.Pairwise Item.Apart := by
  cases s with
  | spawn job => exact List.pairwise_singleton ..
  | _ => exact .nil

theorem Yield.lines_ofEnd (main : Bool) (r : Except RuntimeError Value) (t : Thread) :
    (Yield.ofEnd main r t).lines = [] := by
  unfold Yield.ofEnd
  split
  · rfl
  · split <;> rfl

/-- Whatever a move of an item shows and leaves to do has names of the item. -/
structure Item.Keeps (i : Item) (y : Yield) (new : List Item) : Prop where
  lines : ∀ l ∈ y.lines, i.Owns l.1
  items : ∀ j ∈ new, ∀ id, j.Owns id → i.Owns id
  apart : new.Pairwise Item.Apart

theorem Item.Advances.keeps (h : i.Advances host files y new) : i.Keeps y new := by
  cases h with
  | @run main t s t' h =>
    refine ⟨fun l hl => Signal.owns_of_mem_yield hl, fun j hj id hid => ?_, ?_⟩
    · rcases List.mem_cons.mp hj with rfl | hj
      · exact Thread.Owns.of_next h.named hid
      · exact (Signal.owns_of_mem_items h.named hj hid).1
    · refine .cons (fun j hj id hid hid' => ?_) s.items_apart
      exact (Signal.owns_of_mem_items h.named hj hid').2 hid
  | @finish main t s v t' h | @fail main t s e t' h =>
    refine ⟨fun l hl => ?_, fun j hj id hid => (Signal.owns_of_mem_items h.named hj hid).1,
      s.items_apart⟩
    rw [Yield.lines_append, Yield.lines_ofEnd, List.append_nil] at hl
    exact Signal.owns_of_mem_yield hl
  | launch =>
    refine ⟨nofun, fun j hj id hid => ?_, List.pairwise_singleton ..⟩
    cases List.mem_singleton.mp hj
    exact hid
  | native | nativeFail => exact ⟨nofun, nofun, .nil⟩

/-- The main thread goes on, or shows its end. -/
theorem Item.Advances.length_ends (h : i.Advances host files y new) :
    y.ends.length + new.countP Item.isMain = [i].countP Item.isMain := by
  cases h with
  | @run main t s t' h | @finish main t s v t' h | @fail main t s e t' h =>
    cases s <;> cases main <;> rfl
  | launch | native | nativeFail => rfl

/-- Items stay apart when one of them moves. -/
theorem Item.Keeps.pairwise (h : i.Keeps y new) (his : (i :: is).Pairwise Item.Apart) :
    (new ++ is).Pairwise Item.Apart := by
  obtain ⟨hi, his⟩ := List.pairwise_cons.mp his
  exact List.pairwise_append.mpr ⟨h.apart, his, fun j hj k hk id hid =>
    hi k hk id (h.items j hj id hid)⟩

/-! ## Doing everything -/

namespace Plays

theorem append (h : Plays host files is n y) (h' : Plays host files js m z) :
    Plays host files (is ++ js) (n + m) (y ++ z) := by
  induction h with
  | nil => simpa using h'
  | @cons i is y new n y' k x h hnew hrest _ ih =>
    have hall := Plays.cons h hnew ih
    have hn : n + (k + m) + 1 = n + k + 1 + m := by omega
    rwa [← Yield.append_assoc, hn] at hall

theorem of_append (h : Plays host files (is ++ js) n y) : ∃ n₁ n₂ y₁ y₂,
    Plays host files is n₁ y₁ ∧ Plays host files js n₂ y₂ ∧ n = n₁ + n₂ ∧ y = y₁ ++ y₂ := by
  induction is generalizing n y with
  | nil =>
    exact ⟨0, n, {}, y, .nil, h, (Nat.zero_add n).symm, (Yield.empty_append y).symm⟩
  | cons i is ih =>
    cases h with
    | @cons _ _ y new n y' m z h hnew hrest =>
      obtain ⟨n₁, n₂, y₁, y₂, h₁, h₂, rfl, rfl⟩ := ih hrest
      exact ⟨_, n₂, _, y₂, .cons h hnew h₁, h₂, by omega, (Yield.append_assoc ..).symm⟩

/-- What an agenda comes to, and after how many moves, is determined. -/
theorem unique (h : Plays host files is n y) (h' : Plays host files is m z) : n = m ∧ y = z := by
  induction h generalizing m z with
  | nil =>
    cases h'
    exact ⟨rfl, rfl⟩
  | cons h hnew hrest ihnew ihrest =>
    cases h' with
    | cons h' hnew' hrest' =>
      obtain ⟨rfl, rfl⟩ := h.unique h'
      obtain ⟨rfl, rfl⟩ := ihnew hnew'
      obtain ⟨rfl, rfl⟩ := ihrest hrest'
      exact ⟨rfl, rfl⟩

theorem exists_owner (h : Plays host files is n y) : ∀ l ∈ y.lines, ∃ i ∈ is, i.Owns l.1 := by
  induction h with
  | nil => exact nofun
  | @cons i is y new n y' m z h hnew hrest ihnew ihrest =>
    intro l hl
    simp only [Yield.lines_append, List.mem_append] at hl
    rcases hl with (hl | hl) | hl
    · exact ⟨i, List.mem_cons_self, h.keeps.lines l hl⟩
    · obtain ⟨j, hj, hown⟩ := ihnew l hl
      exact ⟨i, List.mem_cons_self, h.keeps.items j hj _ hown⟩
    · obtain ⟨j, hj, hown⟩ := ihrest l hl
      exact ⟨j, List.mem_cons_of_mem _ hj, hown⟩

/-- All that comes of an item has names of the item. -/
theorem owns_lines (h : i.Advances host files y new) (hnew : Plays host files new n y') :
    ∀ l ∈ (y ++ y').lines, i.Owns l.1 := by
  intro l hl
  rcases List.mem_append.mp hl with hl | hl
  · exact h.keeps.lines l hl
  · obtain ⟨j, hj, hown⟩ := hnew.exists_owner l hl
    exact h.keeps.items j hj _ hown

/-- The main thread ends once. -/
theorem length_ends (h : Plays host files is n y) : y.ends.length = is.countP Item.isMain := by
  induction h with
  | nil => rfl
  | cons h hnew hrest ihnew ihrest =>
    have hends := h.length_ends
    simp only [Yield.ends_append, List.length_append, List.countP_cons, List.countP_nil]
      at hends ⊢
    omega

/-- The order of the items is of no account. -/
theorem perm (hperm : is.Perm is') (hapart : is.Pairwise Item.Apart)
    (h : Plays host files is n y) : ∃ y', Plays host files is' n y' ∧ y.Same y' := by
  induction hperm generalizing n y with
  | nil => exact ⟨y, h, .refl y⟩
  | cons i _ ih =>
    cases h with
    | cons h hnew hrest =>
      obtain ⟨z', hrest', hsame⟩ := ih (List.pairwise_cons.mp hapart).2 hrest
      exact ⟨_, .cons h hnew hrest', (Yield.Same.refl _).append hsame⟩
  | swap i j is =>
    cases h with
    | @cons _ _ yj newj nj yj' _ _ hj hnewj hrest =>
      cases hrest with
      | @cons _ _ yi newi ni yi' m z hi hnewi hrest =>
        have hji : j.Apart i := (List.pairwise_cons.mp hapart).1 i List.mem_cons_self
        have hcomm : Yield.Same ((yj ++ yj') ++ (yi ++ yi')) ((yi ++ yi') ++ (yj ++ yj')) :=
          .comm fun l hl l' hl' heq =>
            hji l.1 (owns_lines hj hnewj l hl) (heq ▸ owns_lines hi hnewi l' hl')
        have hn : ni + (nj + m + 1) + 1 = nj + (ni + m + 1) + 1 := by omega
        refine ⟨(yi ++ yi') ++ ((yj ++ yj') ++ z), hn ▸ .cons hi hnewi (.cons hj hnewj hrest), ?_⟩
        have hsame := hcomm.append (.refl z)
        rwa [Yield.append_assoc, Yield.append_assoc (yi ++ yi')] at hsame
  | trans hfirst _ ih₁ ih₂ =>
    obtain ⟨y₁, h₁, hsame₁⟩ := ih₁ hapart h
    have hapart' := (hfirst.pairwise_iff Item.Apart.symm).mp hapart
    obtain ⟨y₂, h₂, hsame₂⟩ := ih₂ hapart' h₁
    exact ⟨y₂, h₂, hsame₁.trans hsame₂⟩

end Plays

end

end DotScript.Machine
