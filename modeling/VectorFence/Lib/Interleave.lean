import Mathlib.Tactic

/-! Two programs over one memory. A turn of a program is at one cell: it leaves something there, a
    read what it found, and the program goes on with that.

        program false     a     b c       d
        program true        X       Y Z
        at one cell       a X       Y     d      each finds what the one before it has left

    The turns at a cell are those of the first program, with those of the second one at their places
    (`changes_eq_merge`). A place is a number: how many turns of the first program at that cell come
    before (`passed`). So the places say what an interleaving does to a cell, and `passed_of_passed`
    says how the places at one cell depend on those at another. -/

namespace Interleave

variable {Loc : Type*} {Val : Loc → Type*}

/-- What a program does next: nothing, or a turn at a cell. -/
inductive Prog (Val : Loc → Type*) where
  | done
  | turn (l : Loc) (f : Val l → Val l) (k : Val l → Prog Val)

/-- A turn that was taken: its cell, what it found there and what it left. -/
structure Turn (Val : Loc → Type*) where
  loc : Loc
  old : Val loc
  new : Val loc

section Change

variable [DecidableEq Loc]

/-- What a turn does to the cell `x`. -/
def Turn.change (x : Loc) (e : Turn Val) : Option (Val x × Val x) :=
  if h : e.loc = x then some (h ▸ e.old, h ▸ e.new) else none

/-- What a list of turns does to the cell `x`, one after the other. -/
def changes (x : Loc) (es : List (Turn Val)) : List (Val x × Val x) := es.filterMap (Turn.change x)

variable {x : Loc} {e : Turn Val} {es es' : List (Turn Val)}

@[simp] theorem change_self (a b : Val x) : (⟨x, a, b⟩ : Turn Val).change x = some (a, b) :=
  dif_pos rfl

theorem change_of_ne (h : e.loc ≠ x) : e.change x = none := dif_neg h

@[simp] theorem change_eq_none : e.change x = none ↔ e.loc ≠ x := by
  rw [Turn.change]
  split_ifs with h <;> simp [h]

@[simp] theorem changes_nil : changes x ([] : List (Turn Val)) = [] := rfl

@[simp] theorem changes_append : changes x (es ++ es') = changes x es ++ changes x es' :=
  List.filterMap_append

theorem changes_cons : changes x (e :: es) = (e.change x).toList ++ changes x es := by
  rw [changes, List.filterMap_cons]
  cases e.change x <;> rfl

@[simp] theorem changes_cons_self (a b : Val x) :
    changes x ((⟨x, a, b⟩ : Turn Val) :: es) = (a, b) :: changes x es := by
  rw [changes_cons, change_self, Option.toList_some, List.singleton_append]

theorem changes_cons_of_ne (h : e.loc ≠ x) : changes x (e :: es) = changes x es := by
  rw [changes_cons, change_of_ne h, Option.toList_none, List.nil_append]

theorem changes_eq_nil (h : ∀ e ∈ es, e.loc ≠ x) : changes x es = [] := by
  rw [changes, List.filterMap_eq_nil_iff]
  intro e he
  exact change_of_ne (h e he)

/-- Of turns one after the other, the one at index `j` is at the cell. -/
theorem changes_range {f : ℕ → Turn Val} {j : ℕ} {c : Val x × Val x} :
    ∀ (n : ℕ), (∀ k < n, (f k).change x = if k = j then some c else none) →
      changes x ((List.range n).map f) = if j < n then [c] else []
  | 0, _ => rfl
  | n + 1, h => by
      rw [List.range_succ, List.map_append, changes_append,
        changes_range n fun k hk => h k (hk.trans n.lt_succ_self), List.map_singleton, changes_cons,
        h n n.lt_succ_self, changes_nil]
      rcases lt_trichotomy j n with hj | rfl | hj
      · rw [if_pos hj, if_neg hj.ne', if_pos (by omega)]
        rfl
      · rw [if_neg (lt_irrefl j), if_pos rfl, if_pos j.lt_succ_self]
        rfl
      · rw [if_neg (by omega), if_neg hj.ne, if_neg (by omega)]
        rfl

end Change

/-- Each change finds what the one before it has left. -/
def Chain {V : Type*} : V → List (V × V) → V → Prop
  | v, [], w => w = v
  | v, c :: cs, w => c.1 = v ∧ Chain c.2 cs w

section Chain

variable {V : Type*} {v w a b : V} {cs : List (V × V)}

@[simp] theorem chain_nil : Chain v [] w ↔ w = v := Iff.rfl

@[simp] theorem chain_cons : Chain v ((a, b) :: cs) w ↔ a = v ∧ Chain b cs w := Iff.rfl

theorem Chain.append {u : V} : ∀ {v : V} {cs cs' : List (V × V)},
    Chain v cs u → Chain u cs' w → Chain v (cs ++ cs') w
  | _, [], _, h, h' => by
      rw [chain_nil] at h
      exact h ▸ h'
  | _, _ :: _, _, h, h' => ⟨h.1, h.2.append h'⟩

end Chain

/-! ### One program -/

namespace Prog

/-- A turn that looks at a cell. -/
def read (l : Loc) (k : Val l → Prog Val) : Prog Val := .turn l id k

/-- A turn that stores in a cell. -/
def write (l : Loc) (v : Val l) (p : Prog Val) : Prog Val := .turn l (fun _ => v) fun _ => p

def isDone : Prog Val → Bool
  | done => true
  | turn .. => false

theorem eq_done {p : Prog Val} (h : p.isDone = true) : p = done := by
  cases p with
  | done => rfl
  | turn l f k => cases h

/-- The turns `es` take the program to its end, whatever else happens to the memory between them. -/
inductive Path : Prog Val → List (Turn Val) → Prop
  | done : Path done []
  | turn {l : Loc} {f : Val l → Val l} {k : Val l → Prog Val} {es : List (Turn Val)} (v : Val l) :
      Path (k (f v)) es → Path (turn l f k) (⟨l, v, f v⟩ :: es)

section Path

variable {l : Loc} {p : Prog Val} {es : List (Turn Val)}

theorem path_done : Path (done : Prog Val) es ↔ es = [] := by
  constructor
  · rintro ⟨⟩
    rfl
  · rintro rfl
    exact .done

theorem path_turn {f : Val l → Val l} {k : Val l → Prog Val} :
    Path (turn l f k) es ↔ ∃ v es', es = ⟨l, v, f v⟩ :: es' ∧ Path (k (f v)) es' := by
  constructor
  · rintro (_ | ⟨v, h⟩)
    exact ⟨v, _, rfl, h⟩
  · rintro ⟨v, es', rfl, h⟩
    exact .turn v h

theorem path_read {k : Val l → Prog Val} :
    Path (read l k) es ↔ ∃ v es', es = ⟨l, v, v⟩ :: es' ∧ Path (k v) es' := path_turn

theorem path_write {v : Val l} :
    Path (write l v p) es ↔ ∃ u es', es = ⟨l, u, v⟩ :: es' ∧ Path p es' := path_turn

end Path

variable [DecidableEq Loc]

/-- What a turn does to the memory. -/
def effect : Prog Val → (∀ l, Val l) → ∀ l, Val l
  | done, mem => mem
  | turn l f _, mem => Function.update mem l (f (mem l))

/-- What is left of a program after a turn. -/
def rest : Prog Val → (∀ l, Val l) → Prog Val
  | done, _ => done
  | turn l f k, mem => k (f (mem l))

/-- The next turn. -/
def nextTurn : Prog Val → (∀ l, Val l) → Option (Turn Val)
  | done, _ => none
  | turn l f _, mem => some ⟨l, mem l, f (mem l)⟩

/-- The memory after a program without interruption. -/
def exec : Prog Val → (∀ l, Val l) → ∀ l, Val l
  | done, mem => mem
  | turn l f k, mem => (k (f (mem l))).exec (Function.update mem l (f (mem l)))

/-- The turns of a program without interruption. -/
def turns : Prog Val → (∀ l, Val l) → List (Turn Val)
  | done, _ => []
  | turn l f k, mem =>
    ⟨l, mem l, f (mem l)⟩ :: (k (f (mem l))).turns (Function.update mem l (f (mem l)))

end Prog

section Cells

variable [DecidableEq Loc] {mem : ∀ l, Val l}

/-- A turn continues the changes of its cell, and no other ones. -/
theorem chain_update {x l : Loc} {v : Val l} {es : List (Turn Val)} {w : Val x}
    (h : Chain (Function.update mem l v x) (changes x es) w) :
    Chain (mem x) (changes x (⟨l, mem l, v⟩ :: es)) w := by
  rcases eq_or_ne l x with rfl | hne
  · rw [changes_cons_self, chain_cons]
    rw [Function.update_self] at h
    exact ⟨rfl, h⟩
  · rw [changes_cons_of_ne hne]
    rw [Function.update_of_ne hne.symm] at h
    exact h

namespace Prog

theorem exec_read (l : Loc) (k : Val l → Prog Val) (mem : ∀ l, Val l) :
    (read l k).exec mem = (k (mem l)).exec mem := by
  rw [read, exec, id_eq, Function.update_eq_self]

theorem exec_write (l : Loc) (v : Val l) (p : Prog Val) (mem : ∀ l, Val l) :
    (write l v p).exec mem = p.exec (Function.update mem l v) := by
  rw [write, exec]

theorem path_turns : ∀ (p : Prog Val) (mem : ∀ l, Val l), Path p (p.turns mem)
  | done, _ => .done
  | turn _ _ _, _ => .turn _ (path_turns _ _)

theorem chain_turns (x : Loc) : ∀ (p : Prog Val) (mem : ∀ l, Val l),
    Chain (mem x) (changes x (p.turns mem)) (p.exec mem x)
  | done, _ => rfl
  | turn _ _ _, _ => chain_update (chain_turns x _ _)

end Prog

end Cells

/-! ### Two programs in turn -/

/-- The memory and what is left of the two programs. -/
structure Config (Val : Loc → Type*) where
  mem : ∀ l, Val l
  prog : Bool → Prog Val

/-- The turns of one of the two programs. -/
def own (b : Bool) (L : List (Bool × Turn Val)) : List (Turn Val) :=
  L.filterMap fun p => if p.1 = b then some p.2 else none

/-- The cells of the turns, as they come. -/
def cellsOf (L : List (Bool × Turn Val)) : List (Bool × Loc) := L.map fun p => (p.1, p.2.loc)

section Own

variable {b : Bool} {e : Turn Val} {L : List (Bool × Turn Val)}

@[simp] theorem own_nil : own b ([] : List (Bool × Turn Val)) = [] := rfl

@[simp] theorem own_cons_self : own b ((b, e) :: L) = e :: own b L := by simp [own]

@[simp] theorem own_cons_not : own b ((!b, e) :: L) = own b L := by simp [own]

@[simp] theorem own_append {L' : List (Bool × Turn Val)} : own b (L ++ L') = own b L ++ own b L' :=
  List.filterMap_append

@[simp] theorem own_map_self (es : List (Turn Val)) : own b (es.map (b, ·)) = es := by
  simp [own, List.filterMap_map]

@[simp] theorem own_map_not (es : List (Turn Val)) : own b (es.map (!b, ·)) = [] := by
  simp [own, List.filterMap_map]

@[simp] theorem own_false_cons : own false ((true, e) :: L) = own false L := own_cons_not

theorem own_false_cons' : own false ((false, e) :: L) = e :: own false L := own_cons_self

@[simp] theorem own_true_cons : own true ((false, e) :: L) = own true L := own_cons_not

end Own

variable [DecidableEq Loc]

/-- One turn of the program whose turn it is. -/
def step (c : Config Val) (b : Bool) : Config Val :=
  ⟨(c.prog b).effect c.mem, Function.update c.prog b ((c.prog b).rest c.mem)⟩

/-- The turns of a run. -/
def turns : Config Val → List Bool → List (Bool × Turn Val)
  | _, [] => []
  | c, b :: sched => (((c.prog b).nextTurn c.mem).map (b, ·)).toList ++ turns (step c b) sched

/-- Two programs come to their ends from `mem`, and leave `mem'`. -/
structure Woven (p : Bool → Prog Val) (mem mem' : ∀ l, Val l) (L : List (Bool × Turn Val)) : Prop where
  path : ∀ b, (p b).Path (own b L)
  chain : ∀ x, Chain (mem x) (changes x (L.map Prod.snd)) (mem' x)

section Turns

variable {b late : Bool} {c : Config Val} {p : Bool → Prog Val} {mem mem' : ∀ l, Val l}
  {L : List (Bool × Turn Val)}

@[simp] theorem step_prog_self : (step c b).prog b = (c.prog b).rest c.mem := Function.update_self ..

@[simp] theorem step_prog_not : (step c b).prog (!b) = c.prog !b :=
  Function.update_of_ne (Bool.not_ne_self b) ..

/-- A turn in front. -/
theorem Woven.cons {l : Loc} {f : Val l → Val l} {k : Val l → Prog Val} (hp : p b = .turn l f k)
    (h : Woven (Function.update p b (k (f (mem l)))) (Function.update mem l (f (mem l))) mem' L) :
    Woven p mem mem' ((b, ⟨l, mem l, f (mem l)⟩) :: L) := by
  refine ⟨fun b' => ?_, fun x => chain_update (h.chain x)⟩
  have hpath := h.path b'
  rcases Bool.eq_or_eq_not b' b with rfl | rfl
  · rw [Function.update_self] at hpath
    rw [hp, own_cons_self]
    exact .turn _ hpath
  · rw [Function.update_of_ne (Bool.not_ne_self b)] at hpath
    have hown : own (!b) ((b, (⟨l, mem l, f (mem l)⟩ : Turn Val)) :: L) = own (!b) L := by
      simp [own]
    rw [hown]
    exact hpath

/-- Every program comes to its end when it has the turn often enough. -/
theorem exists_done (b : Bool) (p : Prog Val) (c : Config Val) (hp : c.prog b = p) :
    ∃ sched : List Bool, (sched.foldl step c).prog b = .done ∧
      (sched.foldl step c).prog (!b) = c.prog !b := by
  induction p generalizing c with
  | done => exact ⟨[], hp, rfl⟩
  | turn l f k ih =>
    obtain ⟨sched, hdone, hkept⟩ := ih (f (c.mem l)) (step c b) (by rw [step_prog_self, hp]; rfl)
    exact ⟨b :: sched, hdone, hkept.trans step_prog_not⟩

theorem exists_all_done (c : Config Val) :
    ∃ sched : List Bool, ∀ b, (sched.foldl step c).prog b = .done := by
  obtain ⟨front, hfront, -⟩ := exists_done false _ c rfl
  obtain ⟨back, hback, hkept⟩ := exists_done true _ (front.foldl step c) rfl
  refine ⟨front ++ back, fun b => ?_⟩
  rw [List.foldl_append]
  cases b with
  | false => exact hkept.trans hfront
  | true => exact hback

/-- Every run that takes both programs to their ends. -/
theorem woven_turns : ∀ (sched : List Bool) (c : Config Val),
    (∀ b, (sched.foldl step c).prog b = .done) →
      Woven c.prog c.mem (sched.foldl step c).mem (turns c sched)
  | [], c, hdone => by
      refine ⟨fun b => ?_, fun x => rfl⟩
      rw [show c.prog b = .done from hdone b]
      exact .done
  | b :: sched, c, hdone => by
      have h := woven_turns sched (step c b) hdone
      rw [List.foldl_cons, turns]
      generalize hp : c.prog b = p at h ⊢
      cases p with
      | done =>
        have hstep : step c b = c := by
          rw [step, hp, Prog.effect, Prog.rest, ← hp, Function.update_eq_self]
        rw [hstep] at h ⊢
        exact h
      | turn l f k =>
        have hstep : step c b =
            ⟨Function.update c.mem l (f (c.mem l)), Function.update c.prog b (k (f (c.mem l)))⟩ := by
          simp only [step, hp, Prog.effect, Prog.rest]
        rw [hstep] at h ⊢
        exact .cons hp h

/-- The serial run in which `late` is the second. -/
theorem woven_serial (p : Bool → Prog Val) (mem : ∀ l, Val l) (late : Bool) :
    Woven p mem ((p late).exec ((p !late).exec mem))
      (((p !late).turns mem).map (!late, ·) ++
        ((p late).turns ((p !late).exec mem)).map (late, ·)) := by
  refine ⟨fun b => ?_, fun x => ?_⟩
  · rcases Bool.eq_or_eq_not b late with rfl | rfl
    · rw [own_append, own_map_not, own_map_self, List.nil_append]
      exact (p b).path_turns _
    · have hlate : own (!late) (((p late).turns ((p !late).exec mem)).map (late, ·)) = [] := by
        simpa using own_map_not (b := !late) ((p late).turns ((p !late).exec mem))
      rw [own_append, own_map_self, hlate, List.append_nil]
      exact (p !late).path_turns _
  · rw [List.map_append, List.map_map, List.map_map, changes_append]
    have hfirst := (p !late).chain_turns x mem
    have hsecond := (p late).chain_turns x ((p !late).exec mem)
    simpa [Function.comp_def] using hfirst.append hsecond

end Turns

/-! ### Places -/

/-- How many turns of the first program at the cell `x` come before turn `i` of the second one. -/
def passed : List (Bool × Loc) → ℕ → Loc → ℕ
  | [], _, _ => 0
  | (false, l) :: T, i, x => passed T i x + if l = x then 1 else 0
  | (true, _) :: _, 0, _ => 0
  | (true, _) :: T, i + 1, x => passed T i x

/-- How many turns of the first program come before turn `i` of the second one. -/
def before : List (Bool × Loc) → ℕ → ℕ
  | [], _ => 0
  | (false, _) :: T, i => before T i + 1
  | (true, _) :: _, 0 => 0
  | (true, _) :: T, i + 1 => before T i

/-- A list with others at their places, the places counted from `d`. -/
def merge {α : Type*} : ℕ → List α → List (ℕ × α) → List α
  | _, as, [] => as
  | d, as, (p, a) :: ps => as.take (p - d) ++ a :: merge p (as.drop (p - d)) ps

/-- The changes of the cell `x`, each with its place. -/
def placed (x : Loc) (place : ℕ → ℕ) : ℕ → List (Turn Val) → List (ℕ × (Val x × Val x))
  | _, [] => []
  | i, e :: es => ((e.change x).map (place i, ·)).toList ++ placed x place (i + 1) es

section Places

variable {x y : Loc} {i j : ℕ} {L : List (Bool × Turn Val)} {place : ℕ → ℕ} {es es' : List (Turn Val)}

theorem placed_eq_nil (h : changes x es = []) (i : ℕ) : placed x place i es = [] := by
  induction es generalizing i with
  | nil => rfl
  | cons e es ih =>
    rw [changes_cons, List.append_eq_nil_iff, Option.toList_eq_nil_iff] at h
    rw [placed, h.1, ih h.2]
    rfl

theorem placed_append (i : ℕ) :
    placed x place i (es ++ es') = placed x place i es ++ placed x place (i + es.length) es' := by
  induction es generalizing i with
  | nil => rfl
  | cons e es ih =>
    rw [List.cons_append, placed, placed, ih, List.append_assoc, List.length_cons, Nat.add_assoc,
      Nat.add_comm 1]

theorem placed_range {f : ℕ → Turn Val} {c : Val x × Val x} (i : ℕ) : ∀ (n : ℕ),
    (∀ k < n, (f k).change x = if k = j then some c else none) →
      placed x place i ((List.range n).map f) = if j < n then [(place (i + j), c)] else []
  | 0, _ => rfl
  | n + 1, h => by
      rw [List.range_succ, List.map_append, placed_append,
        placed_range i n fun k hk => h k (hk.trans n.lt_succ_self), List.map_singleton, placed,
        h n n.lt_succ_self, List.length_map, List.length_range, placed]
      rcases lt_trichotomy j n with hj | rfl | hj
      · rw [if_pos hj, if_neg hj.ne', if_pos (by omega)]
        rfl
      · rw [if_neg (lt_irrefl j), if_pos rfl, if_pos j.lt_succ_self]
        rfl
      · rw [if_neg (by omega), if_neg hj.ne, if_neg (by omega)]
        rfl

theorem placed_succ (i : ℕ) :
    placed x place (i + 1) es = placed x (fun i => place (i + 1)) i es := by
  induction es generalizing i with
  | nil => rfl
  | cons e es ih => rw [placed, placed, ih]

theorem le_of_mem_placed {d : ℕ} (h : ∀ i, d ≤ place i) (i : ℕ) :
    ∀ p ∈ placed x place i es, d ≤ p.1 := by
  induction es generalizing i with
  | nil => simp [placed]
  | cons e es ih =>
    rw [placed]
    intro p hp
    rcases List.mem_append.mp hp with hp | hp
    · rw [Option.mem_toList, Option.map_eq_some_iff] at hp
      obtain ⟨c, -, rfl⟩ := hp
      exact h i
    · exact ih (i + 1) p hp

theorem merge_cons {α : Type*} {d : ℕ} {a : α} {as : List α} {ps : List (ℕ × α)}
    (h : ∀ p ∈ ps, d + 1 ≤ p.1) : merge d (a :: as) ps = a :: merge (d + 1) as ps := by
  cases ps with
  | nil => rfl
  | cons p ps =>
    have hp := h p (List.mem_cons_self ..)
    obtain ⟨k, hk⟩ := Nat.exists_eq_add_of_le hp
    rw [merge, merge, hk, show d + 1 + k - d = k + 1 by omega, Nat.add_sub_cancel_left,
      List.take_succ_cons, List.drop_succ_cons, List.cons_append]

/-- The turns at a cell are those of the first program, with those of the second one at their
    places. -/
theorem changes_eq_merge (x : Loc) (L : List (Bool × Turn Val)) :
    changes x (L.map Prod.snd) =
      merge 0 (changes x (own false L)) (placed x (passed (cellsOf L) · x) 0 (own true L)) := by
  suffices h : ∀ d, changes x (L.map Prod.snd) =
      merge d (changes x (own false L)) (placed x (d + passed (cellsOf L) · x) 0 (own true L)) by
    simpa using h 0
  induction L with
  | nil => exact fun _ => rfl
  | cons p L ih =>
    obtain ⟨b, e⟩ := p
    intro d
    cases b with
    | false =>
      rw [List.map_cons, changes_cons, own_false_cons', own_true_cons, changes_cons]
      by_cases he : e.loc = x
      · obtain ⟨c, hc⟩ : ∃ c, e.change x = some c := ⟨_, dif_pos he⟩
        have hplace : (d + passed (cellsOf ((false, e) :: L)) · x) =
            (d + 1 + passed (cellsOf L) · x) := by
          funext i
          simp only [cellsOf, List.map_cons, passed, if_pos he]
          omega
        rw [hc, Option.toList_some, List.singleton_append, List.singleton_append, hplace, ih (d + 1),
          merge_cons (le_of_mem_placed (fun i => Nat.le_add_right _ _) 0)]
      · have hplace : (d + passed (cellsOf ((false, e) :: L)) · x) = (d + passed (cellsOf L) · x) := by
          funext i
          simp only [cellsOf, List.map_cons, passed, if_neg he, Nat.add_zero]
        rw [change_of_ne he, Option.toList_none, List.nil_append, List.nil_append, hplace, ih d]
    | true =>
      have hplace : (fun i => d + passed (cellsOf ((true, e) :: L)) (i + 1) x) =
          (d + passed (cellsOf L) · x) := rfl
      rw [List.map_cons, changes_cons, own_false_cons, own_cons_self, placed, placed_succ, hplace, ih d]
      cases e.change x with
      | none => rfl
      | some c => simp [merge, cellsOf, passed]

/-- The changes of a cell in a run, with the turns of the second program at their places. -/
theorem Woven.merged {p : Bool → Prog Val} {mem mem' : ∀ l, Val l} (h : Woven p mem mem' L) (x : Loc) :
    Chain (mem x) (merge 0 (changes x (own false L))
      (placed x (passed (cellsOf L) · x) 0 (own true L))) (mem' x) :=
  changes_eq_merge x L ▸ h.chain x

/-! ### How the places at two cells hang together -/

theorem passed_eq (x : Loc) : ∀ (L : List (Bool × Turn Val)) (i : ℕ),
    passed (cellsOf L) i x = (changes x ((own false L).take (before (cellsOf L) i))).length
  | [], _ => rfl
  | (false, e) :: L, i => by
      have ih := passed_eq x L i
      rw [own_false_cons', cellsOf, List.map_cons, passed, before, List.take_succ_cons, changes_cons,
        List.length_append, Nat.add_comm]
      refine congrArg₂ _ ?_ ih
      by_cases he : e.loc = x
      · simp [he, Turn.change]
      · simp [he, change_of_ne he]
  | (true, e) :: L, 0 => rfl
  | (true, e) :: L, i + 1 => passed_eq x L i

omit [DecidableEq Loc] in
theorem before_le_before : ∀ (T : List (Bool × Loc)) {i j : ℕ}, i ≤ j → before T i ≤ before T j
  | [], _, _, _ => le_rfl
  | (false, _) :: T, _, _, h => Nat.succ_le_succ (before_le_before T h)
  | (true, _) :: _, 0, _, _ => Nat.zero_le _
  | (true, _) :: _, _ + 1, 0, h => absurd h (Nat.not_succ_le_zero _)
  | (true, _) :: T, _ + 1, _ + 1, h => before_le_before T (Nat.le_of_succ_le_succ h)

theorem passed_le_passed (x : Loc) (h : i ≤ j) : passed (cellsOf L) i x ≤ passed (cellsOf L) j x := by
  rw [passed_eq, passed_eq]
  exact ((List.take_sublist_take_left (before_le_before _ h)).filterMap _).length_le

theorem passed_le (x : Loc) (i : ℕ) : passed (cellsOf L) i x ≤ (changes x (own false L)).length := by
  rw [passed_eq]
  exact ((List.take_sublist ..).filterMap _).length_le

/-- Behind the last turn of the second program all turns of the first one have passed. -/
theorem passed_end (x : Loc) : ∀ (L : List (Bool × Turn Val)) (i : ℕ), (own true L).length ≤ i →
    passed (cellsOf L) i x = (changes x (own false L)).length
  | [], _, _ => rfl
  | (false, e) :: L, i, h => by
      rw [own_true_cons] at h
      have ih := passed_end x L i h
      rw [own_false_cons', cellsOf, List.map_cons, passed, changes_cons, List.length_append,
        Nat.add_comm]
      refine congrArg₂ _ ?_ ih
      by_cases he : e.loc = x
      · simp [he, Turn.change]
      · simp [he, change_of_ne he]
  | (true, e) :: L, 0, h => by simp at h
  | (true, e) :: L, i + 1, h => passed_end x L i (by simpa using h)

theorem passed_serial_zero (x : Loc) : ∀ (es : List (Turn Val)) (i : ℕ), i < es.length →
    passed (cellsOf (es.map (true, ·) ++ L)) i x = 0
  | _ :: _, 0, _ => rfl
  | _ :: es, i + 1, h => passed_serial_zero x es i (Nat.lt_of_succ_lt_succ h)

theorem passed_serial (x : Loc) (es' : List (Turn Val)) (i : ℕ) : ∀ es : List (Turn Val),
    passed (cellsOf (es.map (false, ·) ++ es'.map (true, ·))) i x = (changes x es).length
  | [] => by
      rw [passed_eq, List.map_nil, List.nil_append]
      have hown : own false (es'.map (true, ·)) = [] := own_map_not es'
      rw [hown, List.take_nil]
  | e :: es => by
      rw [List.map_cons, List.cons_append, cellsOf, List.map_cons, passed, changes_cons,
        List.length_append, Nat.add_comm]
      refine congrArg₂ _ ?_ (passed_serial x es' i es)
      by_cases he : e.loc = x
      · simp [he, Turn.change]
      · simp [he, change_of_ne he]

/-- Once a turn of the second program is behind `e`, its later turns are behind `e` too. -/
theorem passed_of_passed {pre post : List (Turn Val)} {e : Turn Val}
    (h : own false L = pre ++ e :: post) (hij : i ≤ j)
    (hpassed : (changes x pre).length < passed (cellsOf L) i x) :
    (changes y (pre ++ [e])).length ≤ passed (cellsOf L) j y := by
  have hlt : pre.length < before (cellsOf L) i := by
    by_contra hle
    rw [passed_eq, h, List.take_append_of_le_length (Nat.le_of_not_lt hle)] at hpassed
    exact absurd hpassed (Nat.not_lt_of_le ((List.take_sublist ..).filterMap _).length_le)
  obtain ⟨k, hk⟩ := Nat.exists_eq_add_of_le (hlt.trans_le (before_le_before _ hij))
  have htake : (pre ++ e :: post).take (pre.length.succ + k) = pre ++ [e] ++ post.take k := by
    rw [List.append_cons, show pre.length.succ = (pre ++ [e]).length by simp,
      List.take_length_add_append]
  rw [passed_eq, h, hk, htake]
  simp only [changes_append, List.length_append]
  omega

end Places

end Interleave
