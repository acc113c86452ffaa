import VectorFence.Web.Send

/-! The tags of a page as `http_send_data` reads them, apart from how the page is sent: a machine
    over its bytes that calls for an insert behind each tag.

        "<!--#" blank* name blank* "-->"

    A name has one character. What does not fit ends the tag, and the byte that did not fit is
    passed over: "<<!--#e-->" has no tag. -/

namespace VectorFence

open CStr

namespace Web

/-- How much of a tag has been read. -/
inductive TagScan where
  | none
  | leadin (n : ℕ)
  | found (name : CStr)
  | leadout (name : CStr) (n : ℕ)
  deriving DecidableEq, Repr

/-- One byte of a page, and the tag that ends with it. -/
def tagStep : TagScan → UInt8 → TagScan × Option CStr
  | .none, ch => (if ch = 60 then .leadin 1 else .none, none)
  | .leadin n, ch =>
      (if ch = gPcTagLeadIn.getD n 0 then if n + 1 = gPcTagLeadIn.length then .found [] else
        .leadin (n + 1)
        else .none, none)
  | .found name, ch =>
      (if ch = 45 ∨ isBlank ch then
          if name = [] then if isBlank ch then .found [] else .none
          else .leadout name (if ch = 45 then 1 else 0)
        else if name.length < lwipHttpdMaxTagNameLen then .found (name ++ [ch]) else .none, none)
  | .leadout name n, ch =>
      if n = 0 ∧ isBlank ch then (.leadout name 0, none)
      else if ch = gPcTagLeadOut.getD n 0 then
        if n + 1 = gPcTagLeadOut.length then (.none, some name) else (.leadout name (n + 1), none)
      else (.none, none)

/-! ### What a tag looks like -/

/-- White space between the parts of a tag. -/
def Blanks (s : CStr) : Prop := ∀ ch ∈ s, isBlank ch = true

/-- A character that can be a name. -/
def IsName (ch : UInt8) : Prop := isBlank ch = false ∧ ch ≠ 45

/-- The text of a tag. -/
def IsTag (name text : CStr) : Prop :=
  ∃ b ch b', Blanks b ∧ Blanks b' ∧ IsName ch ∧ name = [ch] ∧
    text = gPcTagLeadIn ++ (b ++ (ch :: (b' ++ gPcTagLeadOut)))

/-- What a state says about the bytes that were read last. -/
def TagForm : TagScan → CStr → Prop
  | .none, t => t = []
  | .leadin n, t => 1 ≤ n ∧ n < 5 ∧ t = gPcTagLeadIn.take n
  | .found name, t =>
      ∃ b, Blanks b ∧ (name = [] ∨ ∃ ch, IsName ch ∧ name = [ch]) ∧ t = gPcTagLeadIn ++ (b ++ name)
  | .leadout name n, t =>
      ∃ b ch b', Blanks b ∧ Blanks b' ∧ IsName ch ∧ name = [ch] ∧ n < 3 ∧
        t = gPcTagLeadIn ++ (b ++ (ch :: (b' ++ gPcTagLeadOut.take n)))

theorem blanks_append {s t : CStr} (hs : Blanks s) (ht : Blanks t) : Blanks (s ++ t) := by
  intro ch hch
  rcases List.mem_append.mp hch with hch | hch
  · exact hs ch hch
  · exact ht ch hch

theorem blanks_singleton {ch : UInt8} (h : isBlank ch = true) : Blanks [ch] := by
  intro ch' hch'
  rw [List.mem_singleton.mp hch']
  exact h

theorem leadIn_eq : gPcTagLeadIn = [60, 33, 45, 45, 35] := by decide

theorem leadOut_eq : gPcTagLeadOut = [45, 45, 62] := by decide

theorem isBlank_dash : isBlank 45 = false := by decide

theorem take_leadIn {n : ℕ} (hpos : 1 ≤ n) (hlt : n < 5) :
    gPcTagLeadIn.take n ++ [gPcTagLeadIn.getD n 0] = gPcTagLeadIn.take (n + 1) := by
  interval_cases n <;> decide

theorem take_leadOut {n : ℕ} (hlt : n < 3) :
    gPcTagLeadOut.take n ++ [gPcTagLeadOut.getD n 0] = gPcTagLeadOut.take (n + 1) := by
  interval_cases n <;> decide

/-- A byte leads on in the tag, or back to the beginning; only the last one of a tag calls. -/
theorem form_step {st : TagScan} {t : CStr} (ch : UInt8) (h : TagForm st t) :
    ((tagStep st ch).2 = none ∧ ((tagStep st ch).1 = .none ∨ TagForm (tagStep st ch).1 (t ++ [ch]))) ∨
      ∃ name, tagStep st ch = (.none, some name) ∧ IsTag name (t ++ [ch]) := by
  cases st with
  | none =>
    left
    obtain rfl : t = [] := h
    by_cases hch : ch = 60
    · subst hch
      exact ⟨rfl, .inr ⟨le_rfl, by norm_num, by decide⟩⟩
    · exact ⟨rfl, .inl (if_neg hch)⟩
  | leadin n =>
    left
    obtain ⟨hpos, hlt, rfl⟩ := h
    refine ⟨rfl, ?_⟩
    simp only [tagStep]
    split_ifs with hch hend
    · refine .inr ⟨[], by simp [Blanks], .inl rfl, ?_⟩
      obtain rfl : n = 4 := by simpa [leadIn_eq] using hend
      rw [hch]
      exact take_leadIn hpos hlt
    · have hlt' : n + 1 < 5 := by
        rw [leadIn_eq] at hend
        simp only [List.length_cons, List.length_nil] at hend
        omega
      exact .inr ⟨by omega, hlt', by rw [hch, take_leadIn hpos hlt]⟩
    · exact .inl rfl
  | found name =>
    left
    obtain ⟨b, hb, hname, rfl⟩ := h
    refine ⟨rfl, ?_⟩
    simp only [tagStep]
    split_ifs with hend hnil hblank hdash hlen
    · -- white space in front of the name
      subst hnil
      exact .inr ⟨b ++ [ch], blanks_append hb (blanks_singleton hblank), .inl rfl, by simp⟩
    · exact .inl rfl
    · obtain ⟨x, hx, rfl⟩ := hname.resolve_left hnil
      subst hdash
      exact .inr ⟨b, x, [], hb, by simp [Blanks], hx, rfl, by norm_num, by simp [leadOut_eq]⟩
    · obtain ⟨x, hx, rfl⟩ := hname.resolve_left hnil
      have hblank := hend.resolve_left hdash
      exact .inr ⟨b, x, [ch], hb, blanks_singleton hblank, hx, rfl, by norm_num, by simp⟩
    · have hnil : name = [] := List.length_eq_zero_iff.mp (by simpa [lwipHttpdMaxTagNameLen] using hlen)
      subst hnil
      obtain ⟨hdash, hblank⟩ := not_or.mp hend
      exact .inr ⟨b, hb, .inr ⟨ch, ⟨by simpa using hblank, hdash⟩, rfl⟩, by simp⟩
    · exact .inl rfl
  | leadout name n =>
    obtain ⟨b, x, b', hb, hb', hx, rfl, hn, rfl⟩ := h
    simp only [tagStep]
    split_ifs with hblank hch hend
    · -- white space behind the name
      obtain ⟨rfl, hblank⟩ := hblank
      exact .inl ⟨rfl, .inr ⟨b, x, b' ++ [ch], hb, blanks_append hb' (blanks_singleton hblank), hx,
        rfl, hn, by simp⟩⟩
    · obtain rfl : n = 2 := by simpa [leadOut_eq] using hend
      refine .inr ⟨_, rfl, b, x, b', hb, hb', hx, rfl, ?_⟩
      rw [hch]
      simp [leadOut_eq]
    · have hn' : n + 1 < 3 := by
        rw [leadOut_eq] at hend
        simp only [List.length_cons, List.length_nil] at hend
        omega
      refine .inl ⟨rfl, .inr ⟨b, x, b', hb, hb', hx, rfl, hn', ?_⟩⟩
      rw [hch, ← take_leadOut hn]
      simp
    · exact .inl ⟨rfl, .inl rfl⟩

/-- What was read last is the beginning of a tag, if the state says so. -/
theorem form_run (s : CStr) : ∃ t, t <:+ s ∧ TagForm (Weave.run tagStep .none s) t := by
  induction s using List.reverseRecOn with
  | nil => exact ⟨[], List.suffix_rfl, rfl⟩
  | append_singleton s ch ih =>
    obtain ⟨t, hsuffix, hform⟩ := ih
    have hsuffix' : t ++ [ch] <:+ s ++ [ch] := by
      obtain ⟨front, rfl⟩ := hsuffix
      exact ⟨front, by simp⟩
    rw [Weave.run_append, Weave.run, Weave.run]
    rcases form_step ch hform with ⟨-, hnone | hnext⟩ | ⟨name, hcall, -⟩
    · rw [hnone]
      exact ⟨[], List.nil_suffix, rfl⟩
    · exact ⟨t ++ [ch], hsuffix', hnext⟩
    · rw [hcall]
      exact ⟨[], List.nil_suffix, rfl⟩

/-- A tag that is called for stands in the page. -/
theorem isTag_of_call {s : CStr} {ch : UInt8} {name : CStr}
    (h : (tagStep (Weave.run tagStep .none s) ch).2 = some name) :
    ∃ t, t <:+ s ++ [ch] ∧ IsTag name t := by
  obtain ⟨t, hsuffix, hform⟩ := form_run s
  rcases form_step ch hform with ⟨hquiet, -⟩ | ⟨name', hcall, htag⟩
  · rw [hquiet] at h
    cases h
  · rw [hcall] at h
    cases h
    obtain ⟨front, rfl⟩ := hsuffix
    exact ⟨t ++ [ch], ⟨front, by simp⟩, htag⟩

/-! ### A page of texts and tags -/

/-- In a text without a lead-in nothing is called; at its end a lead-in may have begun. -/
theorem tags_text {s : CStr} (h : ¬gPcTagLeadIn <:+: s) : Weave.calls tagStep .none s = [] := by
  induction s using List.reverseRecOn with
  | nil => rfl
  | append_singleton s ch ih =>
    rw [Weave.calls_append, ih fun h' => h (h'.trans (List.infix_append' [] s [ch]))]
    cases hcall : (tagStep (Weave.run tagStep .none s) ch).2 with
    | none => simp [Weave.calls, hcall]
    | some name =>
      obtain ⟨t, hsuffix, b, x, b', -, -, -, -, rfl⟩ := isTag_of_call hcall
      exact absurd (((List.prefix_append ..).isInfix).trans hsuffix.isInfix) h

theorem run_text {s : CStr} (h : ¬gPcTagLeadIn <:+: s)
    (hend : ∀ ch ∈ s.getLast?, ch ≠ 60 ∧ ch ≠ 33 ∧ ch ≠ 45) :
    Weave.run tagStep .none s = .none := by
  obtain ⟨t, hsuffix, hform⟩ := form_run s
  cases hst : Weave.run tagStep .none s with
  | none => rfl
  | leadin n =>
    rw [hst] at hform
    obtain ⟨hpos, hlt, rfl⟩ := hform
    obtain ⟨front, rfl⟩ := hsuffix
    have hlast : ∃ ch ∈ (gPcTagLeadIn.take n).getLast?, ch = 60 ∨ ch = 33 ∨ ch = 45 := by
      interval_cases n <;> decide
    obtain ⟨ch, hmem, hch⟩ := hlast
    have := hend ch (by rw [List.getLast?_append, hmem]; rfl)
    tauto
  | found name =>
    rw [hst] at hform
    obtain ⟨b, -, -, rfl⟩ := hform
    exact absurd (((List.prefix_append ..).isInfix).trans hsuffix.isInfix) h
  | leadout name n =>
    rw [hst] at hform
    obtain ⟨b, x, b', -, -, -, -, -, rfl⟩ := hform
    exact absurd (((List.prefix_append ..).isInfix).trans hsuffix.isInfix) h

theorem scan_blanks_found {b : CStr} (hb : Blanks b) :
    Weave.run tagStep (.found []) b = .found [] ∧ Weave.calls tagStep (.found []) b = [] := by
  induction b with
  | nil => exact ⟨rfl, rfl⟩
  | cons ch b ih =>
    have hch : isBlank ch = true := hb ch (List.mem_cons_self ..)
    have hstep : tagStep (.found []) ch = (.found [], none) := by simp [tagStep, hch]
    simp only [Weave.run, Weave.calls, hstep]
    exact ih fun x hx => hb x (List.mem_cons_of_mem _ hx)

theorem scan_blanks_leadout (name : CStr) {b : CStr} (hb : Blanks b) :
    Weave.run tagStep (.leadout name 0) b = .leadout name 0 ∧ Weave.calls tagStep
    (.leadout name 0) b = [] := by
  induction b with
  | nil => exact ⟨rfl, rfl⟩
  | cons ch b ih =>
    have hch : isBlank ch = true := hb ch (List.mem_cons_self ..)
    have hstep : tagStep (.leadout name 0) ch = (.leadout name 0, none) := by simp [tagStep, hch]
    simp only [Weave.run, Weave.calls, hstep]
    exact ih fun x hx => hb x (List.mem_cons_of_mem _ hx)

/-- Behind the name: white space, and the lead-out up to its last byte. -/
theorem scan_leadout (ch : UInt8) {b : CStr} (hb : Blanks b) :
    Weave.run tagStep (.found [ch]) (b ++ [45, 45]) = .leadout [ch] 2 ∧ Weave.calls tagStep
    (.found [ch]) (b ++ [45, 45]) = [] := by
  cases b with
  | nil => exact ⟨rfl, rfl⟩
  | cons x b =>
    have hx : isBlank x = true := hb x (List.mem_cons_self ..)
    have hdash : x ≠ 45 := by
      rintro rfl
      simp [isBlank_dash] at hx
    have hstep : tagStep (.found [ch]) x = (.leadout [ch] 0, none) := by simp [tagStep, hx, hdash]
    obtain ⟨hrun, htags⟩ := scan_blanks_leadout [ch] fun y hy => hb y (List.mem_cons_of_mem _ hy)
    simp only [List.cons_append, Weave.run, Weave.calls, hstep, Weave.run_append,
      Weave.calls_append, hrun]
    exact ⟨rfl, by rw [htags]; rfl⟩

/-- A tag up to its last byte. -/
theorem scan_tag {name t : CStr} (h : IsTag name t) :
    ∃ front, t = front ++ [62] ∧ front ≠
    [] ∧ Weave.run tagStep .none front = .leadout name 2 ∧ Weave.calls tagStep .none front = [] := by
  obtain ⟨b, ch, b', hb, hb', ⟨hblank, hdash⟩, rfl, rfl⟩ := h
  obtain ⟨hrun, htags⟩ := scan_blanks_found hb
  obtain ⟨hrun', htags'⟩ := scan_leadout ch hb'
  have hlead : Weave.run tagStep .none gPcTagLeadIn = .found [] ∧
    Weave.calls tagStep .none gPcTagLeadIn = [] := by decide
  have hname : tagStep (.found []) ch = (.found [ch], none) := by
    simp [tagStep, hdash, hblank, lwipHttpdMaxTagNameLen]
  refine ⟨gPcTagLeadIn ++ (b ++ (ch :: (b' ++ [45, 45]))), by simp [leadOut_eq],
    by simp [leadIn_eq], ?_, ?_⟩
  · rw [Weave.run_append, hlead.1, Weave.run_append, hrun, Weave.run, hname]
    exact hrun'
  · rw [Weave.calls_append, hlead.1, Weave.calls_append, hrun, Weave.calls, hname]
    simp [hlead.2, htags, htags']

/-- A part of a page. -/
inductive Piece where
  | text (s : CStr)
  | tag (name t : CStr)

namespace Piece

def bytes : Piece → CStr
  | text s => s
  | tag _ t => t

/-- No tag begins in a text. -/
def Ok : Piece → Prop
  | text s => s ≠ [] ∧ ¬gPcTagLeadIn <:+: s ∧ ∀ ch ∈ s.getLast?, ch ≠ 60 ∧ ch ≠ 33 ∧ ch ≠ 45
  | tag name t => IsTag name t

/-- The page with an insert behind every tag. Behind a tag that ends the page there is none,
    although it has been asked for. -/
def fill : List Piece → List CStr → CStr
  | [], _ => []
  | text s :: ps, ins => s ++ fill ps ins
  | tag _ t :: ps, ins => t ++ (if ps.isEmpty then [] else ins.headD []) ++ fill ps ins.tail

def names : List Piece → List CStr
  | [] => []
  | text _ :: ps => names ps
  | tag name _ :: ps => name :: names ps

theorem flatMap_ne_nil {ps : List Piece} (h : ∀ p ∈ ps, p.Ok) (hne : ps ≠ []) :
    ps.flatMap bytes ≠ [] := by
  cases ps with
  | nil => exact absurd rfl hne
  | cons p ps =>
    rw [List.forall_mem_cons] at h
    rw [List.flatMap_cons]
    cases p with
    | text s => exact List.append_ne_nil_of_left_ne_nil h.1.1 _
    | tag name t =>
      obtain ⟨front, rfl, hfront, -, -⟩ := scan_tag h.1
      exact List.append_ne_nil_of_left_ne_nil (List.append_ne_nil_of_left_ne_nil hfront _) _

theorem tags_flatMap {ps : List Piece} (h : ∀ p ∈ ps, p.Ok) :
    Weave.calls tagStep .none (ps.flatMap bytes) = names ps := by
  induction ps with
  | nil => rfl
  | cons p ps ih =>
    rw [List.forall_mem_cons] at h
    rw [List.flatMap_cons, Weave.calls_append]
    cases p with
    | text s =>
      obtain ⟨-, hlead, hend⟩ := h.1
      rw [bytes, run_text hlead hend]
      exact (congrArg (· ++ _) (tags_text hlead)).trans (ih h.2)
    | tag name t =>
      obtain ⟨front, rfl, -, hrun, htags⟩ := scan_tag h.1
      rw [bytes, Weave.calls_append, Weave.run_append, hrun]
      exact (congrArg (· ++ _ ++ _) htags).trans (congrArg (name :: ·) (ih h.2))

/-- How a page is read is how it was put together. -/
theorem shown_flatMap {ps : List Piece} (h : ∀ p ∈ ps, p.Ok) (pend : CStr) (ins : List CStr) :
    Weave.weave tagStep .none 0 pend (ps.flatMap bytes) ins = if ps.isEmpty then
    [] else pend ++ fill ps ins := by
  induction ps generalizing pend ins with
  | nil => rfl
  | cons p ps ih =>
    rw [List.forall_mem_cons] at h
    rw [List.flatMap_cons, List.isEmpty_cons, if_neg (by simp)]
    cases p with
    | text s =>
      obtain ⟨hne, hlead, hend⟩ := h.1
      have hrest : (if ps.isEmpty then [] else [] ++ fill ps ins) = fill ps ins := by cases ps <;> rfl
      rw [bytes, Weave.weave_append_of_quiet (tags_text hlead) hne, run_text hlead hend, ih h.2,
        hrest, fill,
        List.append_assoc]
    | tag name t =>
      obtain ⟨front, rfl, hne, hrun, htags⟩ := scan_tag h.1
      have hrest : (if ps.isEmpty then [] else ins.headD [] ++ fill ps ins.tail) =
          (if ps.isEmpty then [] else ins.headD []) ++ fill ps ins.tail := by cases ps <;> rfl
      have hlast : tagStep (.leadout name 2) 62 = (.none, some name) := rfl
      rw [bytes, List.append_assoc, Weave.weave_append_of_quiet htags hne, hrun, List.singleton_append,
        Weave.weave, hlast, fill]
      simp only [ih h.2, hrest, List.nil_append, if_true, List.append_assoc]

theorem names_append (ps qs : List Piece) : names (ps ++ qs) = names ps ++ names qs := by
  induction ps with
  | nil => rfl
  | cons p ps ih =>
    cases p with
    | text s => exact ih
    | tag name t => exact congrArg (name :: ·) ih

/-- The page is the same whatever the insert for a tag at its end is. -/
theorem fill_tag_end (ps : List Piece) (name t : CStr) (ins more : List CStr)
    (hins : ins.length = (names ps).length) :
    fill (ps ++ [tag name t]) (ins ++ more) = fill (ps ++ [tag name t]) ins := by
  induction ps generalizing ins with
  | nil => rfl
  | cons p ps ih =>
    cases p with
    | text s => exact congrArg (s ++ ·) (ih ins hins)
    | tag name' t' =>
      cases ins with
      | nil => cases hins
      | cons text ins =>
        have hrest := ih ins (Nat.succ.inj hins)
        simp only [List.cons_append, fill, List.headD_cons, List.tail_cons, hrest]

end Piece

end Web

end VectorFence
