import Mathlib.Tactic

namespace SlurmScheduler.Http

abbrev Octets := List UInt8

def ascii (text : String) : Octets := text.toList.map Char.toUInt8

abbrev htab : UInt8 := 9
abbrev lf : UInt8 := 10
abbrev cr : UInt8 := 13
abbrev sp : UInt8 := 32
abbrev comma : UInt8 := 44
abbrev slash : UInt8 := 47
abbrev colon : UInt8 := 58
abbrev question : UInt8 := 63

abbrev crlf : Octets := [cr, lf]
abbrev headEnd : Octets := [cr, lf, cr, lf]

def cutAt (mark : Octets) : Octets → Option (Octets × Octets)
  | [] => none
  | b :: rest =>
      if mark.isPrefixOf (b :: rest) then some ([], (b :: rest).drop mark.length)
      else (cutAt mark rest).map fun cut ↦ (b :: cut.1, cut.2)

theorem cutAt_cons_here {mark : Octets} {b : UInt8} {rest after : Octets}
    (h : b :: rest = mark ++ after) : cutAt mark (b :: rest) = some ([], after) := by
  have hp : mark.isPrefixOf (b :: rest) = true := by
    rw [List.isPrefixOf_iff_prefix, h]
    exact List.prefix_append mark after
  rw [cutAt, if_pos hp, h, List.drop_left]

theorem cutAt_cons_skip {mark : Octets} {b : UInt8} {rest : Octets}
    (h : ¬ mark <+: b :: rest) :
    cutAt mark (b :: rest) = (cutAt mark rest).map fun cut ↦ (b :: cut.1, cut.2) := by
  rw [cutAt, if_neg]
  rwa [List.isPrefixOf_iff_prefix]

theorem eq_of_cutAt {mark whole before after : Octets}
    (h : cutAt mark whole = some (before, after)) : whole = before ++ mark ++ after := by
  induction whole generalizing before with
  | nil => cases h
  | cons b rest ih =>
    by_cases hp : mark <+: b :: rest
    · obtain ⟨tail, ht⟩ := hp
      rw [cutAt_cons_here ht.symm] at h
      cases h
      exact ht.symm
    · rw [cutAt_cons_skip hp, Option.map_eq_some_iff] at h
      obtain ⟨⟨front, back⟩, hc, he⟩ := h
      cases he
      rw [List.cons_append, List.cons_append, ← ih hc]

theorem cutAt_append {mark whole before after : Octets} (more : Octets)
    (h : cutAt mark whole = some (before, after)) :
    cutAt mark (whole ++ more) = some (before, after ++ more) := by
  induction whole generalizing before with
  | nil => cases h
  | cons b rest ih =>
    by_cases hp : mark <+: b :: rest
    · obtain ⟨tail, ht⟩ := hp
      rw [cutAt_cons_here ht.symm] at h
      cases h
      change cutAt mark (b :: (rest ++ more)) = _
      refine cutAt_cons_here ?_
      change b :: rest ++ more = _
      rw [← ht, List.append_assoc]
    · have hw := eq_of_cutAt h
      rw [cutAt_cons_skip hp, Option.map_eq_some_iff] at h
      obtain ⟨⟨front, back⟩, hc, he⟩ := h
      cases he
      have hl : mark.length ≤ (b :: rest).length := by
        rw [hw]
        simp only [List.length_append]
        omega
      have hn : ¬ mark <+: b :: (rest ++ more) := fun hq ↦
        hp (List.prefix_of_prefix_length_le hq (List.prefix_append (b :: rest) more) hl)
      rw [List.cons_append, cutAt_cons_skip hn, ih hc]
      rfl

/-- A part of the message shows the mark as soon as it reaches behind it. -/
theorem cutAt_part {mark whole before after part : Octets}
    (h : cutAt mark whole = some (before, after)) (hp : part <+: whole)
    (hl : before.length + mark.length ≤ part.length) (hm : mark ≠ []) :
    cutAt mark part = some (before, part.drop (before.length + mark.length)) := by
  induction before generalizing whole part with
  | nil =>
    obtain ⟨b, rest, rfl⟩ : ∃ b rest, part = b :: rest := by
      cases part with
      | nil => cases mark <;> simp at hm hl
      | cons b rest => exact ⟨b, rest, rfl⟩
    have hw := eq_of_cutAt h
    have hpre : mark <+: b :: rest :=
      List.prefix_of_prefix_length_le ⟨after, hw.symm⟩ hp (by simpa using hl)
    obtain ⟨tail, ht⟩ := hpre
    rw [cutAt_cons_here ht.symm, ← ht]
    simp
  | cons a front ih =>
    cases whole with
    | nil => cases h
    | cons b rest =>
      cases part with
      | nil => simp at hl
      | cons c more =>
        obtain ⟨rfl, hmore⟩ := List.cons_prefix_cons.mp hp
        by_cases hn : mark <+: c :: rest
        · obtain ⟨tail, ht⟩ := hn
          rw [cutAt_cons_here ht.symm] at h
          cases h
        · rw [cutAt_cons_skip hn, Option.map_eq_some_iff] at h
          obtain ⟨⟨front', back⟩, hc, he⟩ := h
          obtain ⟨⟨rfl, rfl⟩, rfl⟩ : (c = a ∧ front' = front) ∧ back = after := by
            simpa only [Prod.mk.injEq, List.cons.injEq] using he
          have hn' : ¬ mark <+: c :: more := fun hq ↦ hn (hq.trans hp)
          have hl' : front'.length + mark.length ≤ more.length := by
            simp only [List.length_cons] at hl
            omega
          rw [cutAt_cons_skip hn', ih hc hmore hl', List.length_cons,
            show front'.length + 1 + mark.length = front'.length + mark.length + 1 by omega,
            List.drop_succ_cons]
          rfl

theorem length_of_cutAt {mark whole before after : Octets}
    (h : cutAt mark whole = some (before, after)) :
    whole.length = before.length + mark.length + after.length := by
  rw [eq_of_cutAt h]
  simp only [List.length_append]

/-- A part of the message shows the mark exactly when it reaches behind it. -/
theorem cutAt_isSome_iff {mark whole before after part : Octets}
    (h : cutAt mark whole = some (before, after)) (hp : part <+: whole) (hm : mark ≠ []) :
    (cutAt mark part).isSome ↔ before.length + mark.length ≤ part.length := by
  constructor
  · intro hs
    obtain ⟨⟨front, back⟩, hc⟩ := Option.isSome_iff_exists.mp hs
    obtain ⟨more, rfl⟩ := hp
    rw [cutAt_append more hc] at h
    cases h
    rw [length_of_cutAt hc]
    omega
  · intro hl
    rw [cutAt_part h hp hl hm]
    rfl

def crlfLines : Octets → List Octets
  | [] => [[]]
  | [b] => [[b]]
  | a :: b :: rest =>
      if a = cr ∧ b = lf then [] :: crlfLines rest
      else match crlfLines (b :: rest) with
        | [] => [[a]]
        | line :: lines => (a :: line) :: lines

theorem crlfLines_ne_nil (message : Octets) : crlfLines message ≠ [] := by
  match message with
  | [] => simp [crlfLines]
  | [b] => simp [crlfLines]
  | a :: b :: rest =>
    rw [crlfLines]
    split
    · simp
    · split <;> simp

theorem crlfLines_crlf (rest : Octets) : crlfLines (crlf ++ rest) = [] :: crlfLines rest := by
  simp [crlfLines]

theorem crlfLines_cons {a b : UInt8} {rest line : Octets} {lines : List Octets}
    (hab : ¬ (a = cr ∧ b = lf)) (h : crlfLines (b :: rest) = line :: lines) :
    crlfLines (a :: b :: rest) = (a :: line) :: lines := by
  rw [crlfLines, if_neg hab, h]

theorem crlf_infix_iff {a : UInt8} {line : Octets} :
    crlf <:+: a :: line ↔ (a = cr ∧ ∃ rest, line = lf :: rest) ∨ crlf <:+: line := by
  rw [List.infix_cons_iff]
  refine or_congr ?_ Iff.rfl
  constructor
  · rintro ⟨rest, hr⟩
    cases hr
    exact ⟨rfl, rest, rfl⟩
  · rintro ⟨rfl, rest, rfl⟩
    exact ⟨rest, rfl⟩

/-- A line that contains no CR LF, cut off by one, is the first line. -/
theorem crlfLines_append (rest : Octets) {line : Octets} (h : ¬ crlf <:+: line) :
    crlfLines (line ++ crlf ++ rest) = line :: crlfLines rest := by
  induction line with
  | nil => exact crlfLines_crlf rest
  | cons a line ih =>
    rw [crlf_infix_iff, not_or] at h
    have hl := ih h.2
    cases line with
    | nil =>
      refine crlfLines_cons ?_ hl
      rintro ⟨-, hb⟩
      cases hb
    | cons b line =>
      refine crlfLines_cons ?_ hl
      rintro ⟨ha, hb⟩
      exact h.1 ⟨ha, line, by rw [hb]⟩

theorem crlfLines_of_not_infix {line : Octets} (h : ¬ crlf <:+: line) :
    crlfLines line = [line] := by
  induction line with
  | nil => rfl
  | cons a line ih =>
    rw [crlf_infix_iff, not_or] at h
    cases line with
    | nil => rfl
    | cons b line =>
      refine crlfLines_cons ?_ (ih h.2)
      rintro ⟨ha, hb⟩
      exact h.1 ⟨ha, line, by rw [hb]⟩

theorem crlfLines_intercalate {lines : List Octets} (hn : lines ≠ [])
    (h : ∀ line ∈ lines, ¬ crlf <:+: line) : crlfLines (crlf.intercalate lines) = lines := by
  induction lines with
  | nil => exact absurd rfl hn
  | cons line lines ih =>
    cases lines with
    | nil => simpa using crlfLines_of_not_infix (h line (by simp))
    | cons next lines =>
      have hi : crlf.intercalate (line :: next :: lines) =
          line ++ crlf ++ crlf.intercalate (next :: lines) := by
        rw [List.intercalate_cons_cons, List.append_assoc]
      rw [hi, crlfLines_append _ (h line (by simp)),
        ih (by simp) fun other ho ↦ h other (by simp [ho])]

theorem head_of_mem_crlfLines {b : UInt8} {rest line : Octets} {lines : List Octets}
    (h : crlfLines (b :: rest) = line :: lines) : line = [] ∨ ∃ more, line = b :: more := by
  cases rest with
  | nil =>
    cases h
    exact Or.inr ⟨[], rfl⟩
  | cons c rest =>
    rw [crlfLines] at h
    split at h
    · cases h
      exact Or.inl rfl
    · split at h <;> cases h <;> exact Or.inr ⟨_, rfl⟩

theorem not_infix_of_mem_crlfLines {message line : Octets} (h : line ∈ crlfLines message) :
    ¬ crlf <:+: line := by
  induction message using crlfLines.induct generalizing line with
  | case1 => simp_all [crlfLines]
  | case2 b => simp_all [crlfLines, List.infix_cons_iff, List.cons_prefix_cons]
  | case3 a b rest hab ih =>
    obtain ⟨rfl, rfl⟩ := hab
    rw [crlfLines, if_pos ⟨rfl, rfl⟩, List.mem_cons] at h
    cases h with
    | inl hl => simp [hl]
    | inr hl => exact ih hl
  | case4 a b rest hab hnil ih => exact absurd hnil (crlfLines_ne_nil _)
  | case5 a b rest hab first lines hcons ih =>
    rw [crlfLines_cons hab hcons, List.mem_cons] at h
    cases h with
    | inr hl => exact ih (by rw [hcons]; exact List.mem_cons_of_mem _ hl)
    | inl hl =>
      rw [hl, crlf_infix_iff]
      rintro (⟨ha, more, hm⟩ | hi)
      · rcases head_of_mem_crlfLines hcons with h0 | ⟨tail, ht⟩
        · rw [h0] at hm
          cases hm
        · rw [ht] at hm
          cases hm
          exact hab ⟨ha, rfl⟩
      · exact ih (by rw [hcons]; exact List.mem_cons_self) hi

theorem intercalate_crlfLines (message : Octets) :
    crlf.intercalate (crlfLines message) = message := by
  induction message using crlfLines.induct with
  | case1 => rfl
  | case2 b => rfl
  | case3 a b rest hab ih =>
    obtain ⟨rfl, rfl⟩ := hab
    obtain ⟨line, lines, hl⟩ := List.exists_cons_of_ne_nil (crlfLines_ne_nil rest)
    rw [crlfLines, if_pos ⟨rfl, rfl⟩, hl, List.intercalate_cons_cons, ← hl, ih]
    rfl
  | case4 a b rest hab hnil ih => exact absurd hnil (crlfLines_ne_nil _)
  | case5 a b rest hab first lines hcons ih =>
    rw [hcons] at ih
    rw [crlfLines_cons hab hcons]
    cases lines with
    | nil => simpa using ih
    | cons next lines =>
      rw [List.intercalate_cons_cons] at ih ⊢
      rw [List.cons_append, List.cons_append, ih]

theorem cutAt_crlf_line {line : Octets} (rest : Octets) (h : ¬ crlf <:+: line) :
    cutAt crlf (line ++ crlf ++ rest) = some (line, rest) := by
  induction line with
  | nil => exact cutAt_cons_here (by simp)
  | cons a line ih =>
    have hp : ¬ crlf <+: a :: (line ++ crlf ++ rest) := by
      intro hp
      rw [List.append_assoc, List.cons_prefix_cons] at hp
      obtain ⟨rfl, hq⟩ := hp
      cases line with
      | nil => simp [show lf ≠ cr by decide] at hq
      | cons b line =>
        have hb : lf = b := by simpa using hq
        subst hb
        exact h ⟨[], line, rfl⟩
    rw [crlf_infix_iff, not_or] at h
    change cutAt crlf (a :: (line ++ crlf ++ rest)) = _
    rw [cutAt_cons_skip hp, ih h.2]
    rfl

def wire : List Octets → Octets
  | [] => crlf
  | line :: lines => line ++ crlf ++ wire lines

theorem intercalate_crlf_eq_wire (lines : List Octets) :
    crlf.intercalate (lines ++ [[], []]) = wire lines := by
  induction lines with
  | nil => rfl
  | cons line lines ih =>
    obtain ⟨next, rest, hr⟩ : ∃ next rest, lines ++ [[], []] = next :: rest := by
      cases lines with
      | nil => exact ⟨_, _, rfl⟩
      | cons next rest => exact ⟨_, _, rfl⟩
    rw [List.cons_append, hr, List.intercalate_cons_cons, ← hr, ih, wire, List.append_assoc]

/-- The lines of a head up to the first empty one, and what follows the head.
The first argument says whether a bare LF closes a line, the second holds what
has been read of the current line. -/
def headOf (bareLf : Bool) (line : Octets) : Octets → Option (List Octets × Octets)
  | [] => none
  | b :: rest =>
      if b = lf ∧ (bareLf ∨ line.getLast? = some cr) then
        let text := if line.getLast? = some cr then line.dropLast else line
        if text = [] then some ([], rest)
        else (headOf bareLf [] rest).map fun read ↦ (text :: read.1, read.2)
      else headOf bareLf (line ++ [b]) rest

def Unbroken (bareLf : Bool) (line : Octets) : Prop :=
  ¬ crlf <:+: line ∧ (bareLf = true → lf ∉ line)

theorem headOf_line {bareLf : Bool} {line : Octets} (rest : Octets)
    (h : Unbroken bareLf line) (hl : line ≠ []) :
    headOf bareLf [] (line ++ crlf ++ rest) =
      (headOf bareLf [] rest).map fun read ↦ (line :: read.1, read.2) := by
  suffices hgen : ∀ tail front, front ++ tail = line →
      headOf bareLf front (tail ++ crlf ++ rest) =
        (headOf bareLf [] rest).map fun read ↦ (line :: read.1, read.2) from hgen line [] rfl
  intro tail
  induction tail with
  | nil =>
    intro front hf
    rw [List.append_nil] at hf
    subst hf
    simp [headOf, hl, show cr ≠ lf by decide]
  | cons b tail ih =>
    intro front hf
    have hb : ¬ (b = lf ∧ (bareLf = true ∨ front.getLast? = some cr)) := by
      rintro ⟨rfl, hbare | hcr⟩
      · exact h.2 hbare (hf ▸ by simp)
      · obtain ⟨init, rfl⟩ := List.getLast?_eq_some_iff.mp hcr
        exact h.1 ⟨init, tail, by rw [← hf]; simp⟩
    rw [List.cons_append, List.cons_append, headOf, if_neg hb]
    exact ih (front ++ [b]) (by rw [← hf]; simp)

theorem headOf_crlf (bareLf : Bool) (rest : Octets) :
    headOf bareLf [] (crlf ++ rest) = some ([], rest) := by
  simp [headOf, show cr ≠ lf by decide]

theorem headOf_wire {bareLf : Bool} {lines : List Octets} (body : Octets)
    (h : ∀ line ∈ lines, Unbroken bareLf line ∧ line ≠ []) :
    headOf bareLf [] (wire lines ++ body) = some (lines, body) := by
  induction lines with
  | nil => exact headOf_crlf bareLf body
  | cons line lines ih =>
    have hl := h line (by simp)
    rw [wire, List.append_assoc, headOf_line _ hl.1 hl.2, ih fun other ho ↦ h other (by simp [ho])]
    rfl

/-- Lines closed by CR LF alone are the lines a message was written with. -/
theorem wire_of_headOf {message body : Octets} {lines : List Octets}
    (h : headOf false [] message = some (lines, body)) :
    message = wire lines ++ body ∧ ∀ line ∈ lines, ¬ crlf <:+: line ∧ line ≠ [] := by
  suffices hgen : ∀ message front lines, ¬ crlf <:+: front →
      headOf false front message = some (lines, body) →
      front ++ message = wire lines ++ body ∧ ∀ line ∈ lines, ¬ crlf <:+: line ∧ line ≠ [] by
    exact hgen message [] lines (by simp) h
  clear h lines message
  intro message
  induction message with
  | nil =>
    intro front lines hf h
    cases h
  | cons b rest ih =>
    intro front lines hf h
    rw [headOf] at h
    by_cases hb : b = lf ∧ (false = true ∨ front.getLast? = some cr)
    · obtain ⟨rfl, hcr⟩ := hb
      have hlast : front.getLast? = some cr := by simpa using hcr
      obtain ⟨text, rfl⟩ := List.getLast?_eq_some_iff.mp hlast
      simp only [hlast, or_true, and_true, if_true, List.dropLast_concat] at h
      split at h
      · next ht =>
        subst ht
        cases h
        exact ⟨rfl, by simp⟩
      · next ht =>
        rw [Option.map_eq_some_iff] at h
        obtain ⟨⟨lines', body'⟩, hr, he⟩ := h
        cases he
        obtain ⟨hw, hl⟩ := ih [] lines' (by simp) hr
        rw [List.nil_append] at hw
        refine ⟨by rw [hw, wire]; simp, ?_⟩
        intro line hm
        cases hm with
        | head => exact ⟨fun hi ↦ hf (hi.trans (List.infix_append' [] text [cr])), ht⟩
        | tail _ hm => exact hl line hm
    · rw [if_neg hb] at h
      have hf' : ¬ crlf <:+: front ++ [b] := by
        rintro ⟨init, tail, ht⟩
        rcases List.eq_nil_or_concat tail with rfl | ⟨tail, c, rfl⟩
        · have hlast := congrArg List.getLast? ht
          have hinit := congrArg List.dropLast ht
          simp at hlast hinit
          exact hb ⟨hlast.symm, Or.inr (by rw [← hinit]; simp)⟩
        · have hinit := congrArg List.dropLast ht
          rw [List.dropLast_concat, List.concat_eq_append, ← List.append_assoc,
            List.dropLast_concat] at hinit
          exact hf ⟨init, tail, hinit⟩
      obtain ⟨hw, hl⟩ := ih (front ++ [b]) lines hf' h
      exact ⟨by rw [← hw]; simp, hl⟩

theorem not_crlf_here {line : Octets} (rest : Octets) (h : ¬ crlf <:+: line)
    (hl : line ≠ []) : ¬ crlf <+: line ++ crlf ++ rest := by
  rintro ⟨tail, ht⟩
  match line with
  | [] => exact hl rfl
  | [a] => simp [show lf ≠ cr by decide] at ht
  | a :: b :: more =>
    simp only [List.cons_append, List.nil_append, List.cons.injEq] at ht
    exact h ⟨[], more, by simp [← ht.1, ← ht.2.1]⟩

theorem not_headEnd_here {a : UInt8} {line : Octets} (rest : Octets)
    (h : ¬ crlf <:+: a :: line) : ¬ headEnd <+: a :: (line ++ crlf ++ rest) := by
  intro hp
  refine not_crlf_here rest h (by simp) ?_
  exact (List.prefix_append crlf crlf).trans hp

theorem cutAt_blank_line {line : Octets} (body : Octets) (h : ¬ crlf <:+: line) :
    cutAt headEnd (line ++ crlf ++ (crlf ++ body)) = some (line, body) := by
  induction line with
  | nil => exact cutAt_cons_here (by simp)
  | cons a line ih =>
    change cutAt headEnd (a :: (line ++ crlf ++ (crlf ++ body))) = _
    rw [cutAt_cons_skip (not_headEnd_here _ h)]
    rw [crlf_infix_iff, not_or] at h
    rw [ih h.2]
    rfl

theorem cutAt_next_line {line rest : Octets} (h : ¬ crlf <:+: line) (hr : ¬ crlf <+: rest) :
    cutAt headEnd (line ++ crlf ++ rest) =
      (cutAt headEnd rest).map fun cut ↦ (line ++ crlf ++ cut.1, cut.2) := by
  induction line with
  | nil =>
    have h₁ : ¬ headEnd <+: cr :: (lf :: rest) := by
      change ¬ crlf ++ crlf <+: crlf ++ rest
      rw [List.prefix_append_right_inj]
      exact hr
    have h₂ : ¬ headEnd <+: lf :: rest := by
      rintro ⟨tail, ht⟩
      simp [show cr ≠ lf by decide] at ht
    change cutAt headEnd (cr :: (lf :: rest)) = _
    rw [cutAt_cons_skip h₁, cutAt_cons_skip h₂, Option.map_map]
    rfl
  | cons a line ih =>
    change cutAt headEnd (a :: (line ++ crlf ++ rest)) = _
    rw [cutAt_cons_skip (not_headEnd_here _ h)]
    rw [crlf_infix_iff, not_or] at h
    rw [ih h.2, Option.map_map]
    rfl

theorem cutAt_wire {lines : List Octets} (body : Octets) (hn : lines ≠ [])
    (h : ∀ line ∈ lines, ¬ crlf <:+: line ∧ line ≠ []) :
    cutAt headEnd (wire lines ++ body) = some (crlf.intercalate lines, body) := by
  induction lines with
  | nil => exact absurd rfl hn
  | cons line lines ih =>
    have hl := (h line (by simp)).1
    cases lines with
    | nil =>
      rw [wire, wire, List.append_assoc]
      simpa using cutAt_blank_line body hl
    | cons next lines =>
      have hnext := h next (by simp)
      have hr : ¬ crlf <+: wire (next :: lines) ++ body := by
        rw [wire, List.append_assoc]
        exact not_crlf_here _ hnext.1 hnext.2
      rw [wire, List.append_assoc, cutAt_next_line hl hr,
        ih (by simp) fun other ho ↦ h other (by simp [ho]), List.intercalate_cons_cons]
      simp

end SlurmScheduler.Http
