import Patchboard.Proofs.Source.Grammar

/-!
# The grammar is unambiguous

The grammar says how expressions are put together, and groups operators of one level to the left by
putting the longer part first. Read from left to right, an expression is an operand of a higher level
and what follows it in its own level, one operator at a time. Such a reading is determined by the
tokens, and whatever the grammar derives is read so. Hence tokens are derived by the grammar as at most
one program.
-/

namespace Patchboard.Grammar

/-! ## Reading from left to right -/

/-- What is to be read. -/
inductive Task where
  /-- An expression of a level. -/
  | expr (level : Nat)
  /-- What follows an expression in a level. -/
  | rest (level : Nat) (e : Expr)
  | args
  | moreArgs

/-- The token continues an expression in a level. -/
def continues (level : Nat) : Token → Bool
  | .sign (.operator op) => op.precedence == level
  | .sign .question => level == 0
  | .sign .openParen | .sign .openBracket | .sign .dot => level == 10
  | _ => false

/-- The tokens do not continue an expression in a level. -/
def Stops (level : Nat) (ts : List Token) : Prop :=
  ∀ t ∈ ts.head?, continues level t = false

/-- What is read from the beginning of some tokens, and the tokens behind it. A single expression is
the only member of a list. -/
inductive Consumes : Task → List Token → List Expr → List Token → Prop where
  | ident {name ts es out} (h : Consumes (.rest 10 (.ident name)) ts es out) :
    Consumes (.expr 10) (.word name :: ts) es out
  | text {s ts es out} (h : Consumes (.rest 10 (.literal (.string s))) ts es out) :
    Consumes (.expr 10) (.text s :: ts) es out
  | parens {e ts mid es out} (h : Consumes (.expr 0) ts [e] (.sign .closeParen :: mid))
      (hrest : Consumes (.rest 10 e) mid es out) :
    Consumes (.expr 10) (.sign .openParen :: ts) es out
  | number {d b ts es out} (hd : d.RoundsTo b)
      (h : Consumes (.rest 9 (.literal (.number b))) ts es out) :
    Consumes (.expr 9) (.numeral d :: ts) es out
  | negative {d b ts es out} (hd : d.RoundsTo b)
      (h : Consumes (.rest 8 (.literal (.number b.negate))) ts es out) :
    Consumes (.expr 8) (.sign (.operator .sub) :: .numeral d :: ts) es out
  | level {level e ts mid es out} (hlevel : level < 10)
      (h : Consumes (.expr (level + 1)) ts [e] mid) (hrest : Consumes (.rest level e) mid es out) :
    Consumes (.expr level) ts es out
  | call {callee args ts mid es out} (h : Consumes .args ts args (.sign .closeParen :: mid))
      (hrest : Consumes (.rest 10 (.call callee args)) mid es out) :
    Consumes (.rest 10 callee) (.sign .openParen :: ts) es out
  | member {object property ts es out}
      (h : Consumes (.rest 10 (.member object property)) ts es out) :
    Consumes (.rest 10 object) (.sign .dot :: .word property :: ts) es out
  | index {object key ts mid es out}
      (h : Consumes (.expr 0) ts [key] (.sign .closeBracket :: mid))
      (hrest : Consumes (.rest 10 (.index object key)) mid es out) :
    Consumes (.rest 10 object) (.sign .openBracket :: ts) es out
  | binary {level left op right ts mid es out} (hlevel : op.precedence = level)
      (h : Consumes (.expr (rightLevel op)) ts [right] mid)
      (hrest : Consumes (.rest level (.binary left op right)) mid es out) :
    Consumes (.rest level left) (.sign (.operator op) :: ts) es out
  | conditional {test consequent alternate ts mid mid' es out}
      (hconsequent : Consumes (.expr 0) ts [consequent] (.sign .colon :: mid))
      (halternate : Consumes (.expr 0) mid [alternate] mid')
      (hrest : Consumes (.rest 0 (.conditional test consequent alternate)) mid' es out) :
    Consumes (.rest 0 test) (.sign .question :: ts) es out
  | stop {level e ts} (h : Stops level ts) : Consumes (.rest level e) ts [e] ts
  | noArgs {ts} : Consumes .args (.sign .closeParen :: ts) [] (.sign .closeParen :: ts)
  | someArgs {e ts mid es out} (h : Consumes (.expr 0) ts [e] mid)
      (hs : Consumes .moreArgs mid es out) :
    Consumes .args ts (e :: es) out
  | noMoreArgs {ts} : Consumes .moreArgs (.sign .closeParen :: ts) [] (.sign .closeParen :: ts)
  | someMoreArgs {e ts mid es out} (h : Consumes (.expr 0) ts [e] mid)
      (hs : Consumes .moreArgs mid es out) :
    Consumes .moreArgs (.sign .comma :: ts) (e :: es) out

/-! ## Readings are determined -/

/-- The token may begin an expression of a level. -/
def starts (level : Nat) : Token → Bool
  | .word _ | .text _ | .sign .openParen => true
  | .numeral _ => level ≤ 9
  | .sign (.operator .sub) => level ≤ 8
  | _ => false

theorem starts_of_succ {level : Nat} {t : Token} (h : starts (level + 1) t = true) :
  starts level t = true
  := by
  cases t with
  | word s => rfl
  | text s => rfl
  | numeral d =>
    simp only [starts, decide_eq_true_eq] at h ⊢
    omega
  | sign σ =>
    cases σ with
    | operator op =>
      cases op with
      | sub =>
        simp only [starts, decide_eq_true_eq] at h ⊢
        omega
      | _ => exact h
    | _ => exact h

theorem Consumes.exists_starts {task : Task} {ts out : List Token} {es : List Expr}
    (h : Consumes task ts es out) {level : Nat} (htask : task = .expr level) :
  ∃ t us, ts = t :: us ∧ starts level t = true
  := by
  induction h generalizing level with
  | ident => exact ⟨_, _, rfl, rfl⟩
  | text => exact ⟨_, _, rfl, rfl⟩
  | parens => exact ⟨_, _, rfl, rfl⟩
  | number =>
    cases htask
    exact ⟨_, _, rfl, rfl⟩
  | negative =>
    cases htask
    exact ⟨_, _, rfl, rfl⟩
  | level _ _ _ ih =>
    cases htask
    obtain ⟨t, us, hts, hstart⟩ := ih rfl
    exact ⟨t, us, hts, starts_of_succ hstart⟩
  | _ => exact absurd htask (by simp)

/-- No expression of a level is read where none begins. -/
theorem Consumes.false_of_starts {level : Nat} {t : Token} {ts out : List Token} {es : List Expr}
    (h : Consumes (.expr level) (t :: ts) es out) (ht : starts level t = false) :
  False
  := by
  obtain ⟨u, us, hts, hu⟩ := h.exists_starts rfl
  cases hts
  rw [ht] at hu
  exact Bool.false_ne_true hu

/-- What is read, and where it ends, is determined by the tokens. -/
theorem Consumes.unique {task : Task} {ts out out' : List Token} {es es' : List Expr}
    (h : Consumes task ts es out) (h' : Consumes task ts es' out') :
  es = es' ∧ out = out'
  := by
  induction h generalizing es' out' with
  | ident _ ih =>
    cases h' with
    | ident h' => exact ih h'
    | level hlevel => omega
  | text _ ih =>
    cases h' with
    | text h' => exact ih h'
    | level hlevel => omega
  | parens _ _ ih ihrest =>
    cases h' with
    | parens h' hrest' =>
      obtain ⟨⟨⟩, ⟨⟩⟩ := ih h'
      apply ihrest hrest'
    | level hlevel => omega
  | number hd _ ih =>
    cases h' with
    | number hd' h' =>
      obtain rfl := hd.unique hd'
      apply ih h'
    | level _ h' =>
      exact (h'.false_of_starts rfl).elim
  | negative hd _ ih =>
    cases h' with
    | negative hd' h' =>
      obtain rfl := hd.unique hd'
      apply ih h'
    | level _ h' =>
      exact (h'.false_of_starts rfl).elim
  | level hlevel h _ ih ihrest =>
    cases h' with
    | level _ h' hrest' =>
      obtain ⟨⟨⟩, ⟨⟩⟩ := ih h'
      apply ihrest hrest'
    | number =>
      exact (h.false_of_starts rfl).elim
    | negative =>
      exact (h.false_of_starts rfl).elim
    | _ => omega
  | call _ _ ih ihrest =>
    cases h' with
    | call h' hrest' =>
      obtain ⟨⟨⟩, ⟨⟩⟩ := ih h'
      apply ihrest hrest'
    | stop h' => exact absurd (h' _ rfl) (by simp [continues])
  | member _ ih =>
    cases h' with
    | member h' => exact ih h'
    | stop h' => exact absurd (h' _ rfl) (by simp [continues])
  | index _ _ ih ihrest =>
    cases h' with
    | index h' hrest' =>
      obtain ⟨⟨⟩, ⟨⟩⟩ := ih h'
      apply ihrest hrest'
    | stop h' => exact absurd (h' _ rfl) (by simp [continues])
  | binary hlevel _ _ ih ihrest =>
    cases h' with
    | binary _ h' hrest' =>
      obtain ⟨⟨⟩, ⟨⟩⟩ := ih h'
      apply ihrest hrest'
    | stop h' => exact absurd (h' _ rfl) (by simp [continues, hlevel])
  | conditional _ _ _ ihc iha ihrest =>
    cases h' with
    | conditional hc' ha' hrest' =>
      obtain ⟨⟨⟩, ⟨⟩⟩ := ihc hc'
      obtain ⟨⟨⟩, ⟨⟩⟩ := iha ha'
      apply ihrest hrest'
    | stop h' => exact absurd (h' _ rfl) (by simp [continues])
  | stop h =>
    cases h' with
    | stop _ => exact ⟨rfl, rfl⟩
    | binary hlevel _ _ => exact absurd (h _ rfl) (by simp [continues, hlevel])
    | _ => exact absurd (h _ rfl) (by simp [continues])
  | noArgs =>
    cases h' with
    | noArgs => exact ⟨rfl, rfl⟩
    | someArgs h' _ =>
      exact (h'.false_of_starts rfl).elim
  | someArgs h _ ih ihs =>
    cases h' with
    | noArgs =>
      exact (h.false_of_starts rfl).elim
    | someArgs h' hs' =>
      obtain ⟨⟨⟩, ⟨⟩⟩ := ih h'
      obtain ⟨rfl, hout⟩ := ihs hs'
      exact ⟨rfl, hout⟩
  | noMoreArgs =>
    cases h' with
    | noMoreArgs => exact ⟨rfl, rfl⟩
  | someMoreArgs _ _ ih ihs =>
    cases h' with
    | someMoreArgs h' hs' =>
      obtain ⟨⟨⟩, ⟨⟩⟩ := ih h'
      obtain ⟨rfl, hout⟩ := ihs hs'
      exact ⟨rfl, hout⟩

/-! ## Everything derived is read -/

/-- The tokens continue no expression. -/
def Closes (ts : List Token) : Prop :=
  ∀ level, Stops level ts

/-- What is read of a phrase, with the tokens behind it. An expression is read together with what
follows it in its level, unless the level groups to the right: then all of it belongs to the phrase. -/
def ReadsOn : Phrase → List Token → Prop
  | .expr level e, ts => ∀ {rest es out}, (∀ above, level < above → Stops above rest) →
    (level = 0 ∨ level = 7 → Stops level rest) → Consumes (.rest level e) rest es out →
    Consumes (.expr level) (ts ++ rest) es out
  | .args es, ts => ∀ {rest}, Consumes .args (ts ++ .sign .closeParen :: rest) es
    (.sign .closeParen :: rest)
  | .moreArgs es, ts => ∀ {rest}, Consumes .moreArgs (ts ++ .sign .closeParen :: rest) es
    (.sign .closeParen :: rest)

theorem stops_cons {level : Nat} {t : Token} {ts : List Token} (h : continues level t = false) :
  Stops level (t :: ts)
  := by
  intro u hu
  obtain rfl := Option.some.inj hu
  exact h

/-- A phrase at whose end its level stops is read alone. -/
theorem ReadsOn.consumes {level : Nat} {e : Expr} {ts rest : List Token}
    (h : ReadsOn (.expr level e) ts) (hrest : ∀ above, level ≤ above → Stops above rest) :
  Consumes (.expr level) (ts ++ rest) [e] rest
  := by
  apply h
  · intro above habove
    apply hrest above (Nat.le_of_lt habove)
  · intro _
    apply hrest level (le_refl level)
  · exact .stop (hrest level (le_refl level))

theorem closes_cons {t : Token} {ts : List Token} (h : ∀ level, continues level t = false) :
  Closes (t :: ts)
  := fun level => stops_cons (h level)

/-- An expression is read alone when what follows continues no expression. -/
theorem ReadsOn.consumes_of_closes {level : Nat} {e : Expr} {ts rest : List Token}
    (h : ReadsOn (.expr level e) ts) (hrest : Closes rest) :
  Consumes (.expr level) (ts ++ rest) [e] rest
  := h.consumes fun above _ => hrest above

/-- Behind an argument stands a comma or a parenthesis. -/
theorem closes_moreArgs {es : List Expr} {ts rest : List Token} (h : Derives (.moreArgs es) ts) :
  Closes (ts ++ .sign .closeParen :: rest)
  := by
  cases h with
  | noMoreArgs => exact closes_cons fun _ => rfl
  | someMoreArgs => exact closes_cons fun _ => rfl

theorem precedence_eq_seven_iff (op : Operator) :
  op.precedence = 7 ↔ op.isRightAssociative = true
  := by
  cases op <;> decide

theorem precedence_pos (op : Operator) :
  0 < op.precedence
  := by
  cases op <;> decide

theorem stops_operator {op : Operator} {level : Nat} {ts : List Token} (h : level ≠ op.precedence) :
  Stops level (.sign (.operator op) :: ts)
  := stops_cons (beq_false_of_ne (Ne.symm h))

/-- An object is read on by a token that continues the highest level only. -/
theorem ReadsOn.object {e : Expr} {t : Token} {ts rest out : List Token} {es : List Expr}
    (h : ReadsOn (.expr 10 e) ts) (ht : ∀ level, continues level t = (level == 10))
    (hrest : Consumes (.rest 10 e) (t :: rest) es out) :
  Consumes (.expr 10) (ts ++ t :: rest) es out
  := by
  apply h _ _ hrest
  · intro above habove
    apply stops_cons
    rw [ht]
    apply beq_false_of_ne
    omega
  · intro hlevel
    omega

section

variable {op : Operator} {left right : Expr} {ts us rest out : List Token} {es : List Expr}

/-- An operation that groups to the left is read from its first operand on. -/
theorem ReadsOn.binary_of_left (hassoc : op.isRightAssociative = false)
    (hleft : ReadsOn (.expr (leftLevel op) left) ts)
    (hright : ReadsOn (.expr (rightLevel op) right) us)
    (habove : ∀ above, op.precedence < above → Stops above rest)
    (hrest : Consumes (.rest op.precedence (.binary left op right)) rest es out) :
  Consumes (.expr op.precedence) (ts ++ .sign (.operator op) :: (us ++ rest)) es out
  := by
  have hpos := precedence_pos op
  have hseven := precedence_eq_seven_iff op
  rw [hassoc, Bool.false_eq_true, iff_false] at hseven
  rw [leftLevel, hassoc, if_neg Bool.false_ne_true] at hleft
  rw [rightLevel, hassoc, if_neg Bool.false_ne_true] at hright
  apply hleft
  · intro above h
    apply stops_operator
    omega
  · intro h
    omega
  · apply Consumes.binary rfl _ hrest
    rw [rightLevel, hassoc, if_neg Bool.false_ne_true]
    apply hright.consumes
    exact habove

/-- An operation that groups to the right takes all operands of its level to its right. -/
theorem ReadsOn.binary_of_right (hassoc : op.isRightAssociative = true)
    (hleft : ReadsOn (.expr (leftLevel op) left) ts)
    (hright : ReadsOn (.expr (rightLevel op) right) us)
    (habove : ∀ above, op.precedence < above → Stops above rest)
    (hself : op.precedence = 0 ∨ op.precedence = 7 → Stops op.precedence rest)
    (hrest : Consumes (.rest op.precedence (.binary left op right)) rest es out) :
  Consumes (.expr op.precedence) (ts ++ .sign (.operator op) :: (us ++ rest)) es out
  := by
  have hseven := (precedence_eq_seven_iff op).mpr hassoc
  rw [leftLevel, hassoc, if_pos rfl] at hleft
  rw [rightLevel, hassoc, if_pos rfl] at hright
  -- The operand on the left is read first, up to the operator.
  have hnine : Consumes (.expr 9) (ts ++ .sign (.operator op) :: (us ++ rest)) [left]
      (.sign (.operator op) :: (us ++ rest)) := by
    apply hleft.consumes
    intro above h
    apply stops_operator
    omega
  have height : Consumes (.expr 8) (ts ++ .sign (.operator op) :: (us ++ rest)) [left]
      (.sign (.operator op) :: (us ++ rest)) := by
    apply Consumes.level (by omega) hnine
    apply Consumes.stop
    apply stops_operator
    omega
  have hoperand : Consumes (.expr (rightLevel op)) (us ++ rest) [right] rest := by
    rw [rightLevel, hassoc, if_pos rfl]
    apply hright.consumes
    intro above h
    rcases Nat.lt_or_eq_of_le h with hlt | rfl
    · apply habove above hlt
    · apply hself (.inr hseven)
  have hall := Consumes.binary rfl hoperand hrest
  rw [hseven] at hall ⊢
  apply Consumes.level (by omega) height hall

end

/-- A derived phrase is read, and what follows it is read on in its level. -/
theorem Derives.readsOn {p : Phrase} {ts : List Token} (h : Derives p ts) :
  ReadsOn p ts
  := by
  induction h with
  | ident hname =>
    intro rest es out _ _ hrest
    exact .ident hrest
  | text =>
    intro rest es out _ _ hrest
    exact .text hrest
  | parens h ih =>
    intro rest es out _ _ hrest
    simp only [List.cons_append, List.append_assoc, List.nil_append]
    exact .parens (ih.consumes_of_closes (closes_cons fun _ => rfl)) hrest
  | call hcallee hargs ihcallee ihargs =>
    intro rest es out _ _ hrest
    simp only [List.cons_append, List.append_assoc, List.nil_append]
    apply ihcallee.object fun _ => rfl
    exact .call ihargs hrest
  | member hobject hproperty ih =>
    intro rest es out _ _ hrest
    simp only [List.cons_append, List.append_assoc, List.nil_append]
    apply ih.object fun _ => rfl
    exact .member hrest
  | index hobject hkey ihobject ihkey =>
    intro rest es out _ _ hrest
    simp only [List.cons_append, List.append_assoc, List.nil_append]
    apply ihobject.object fun _ => rfl
    exact .index (ihkey.consumes_of_closes (closes_cons fun _ => rfl)) hrest
  | number hd =>
    intro rest es out _ _ hrest
    exact .number hd hrest
  | negative hd =>
    intro rest es out _ _ hrest
    exact .negative hd hrest
  | @binary left op right ts us hleft hright ihleft ihright =>
    intro rest es out habove hself hrest
    simp only [List.cons_append, List.append_assoc]
    cases hassoc : op.isRightAssociative with
    | false => apply ihleft.binary_of_left hassoc ihright habove hrest
    | true => apply ihleft.binary_of_right hassoc ihright habove hself hrest
  | @conditional _ _ alternate _ _ vs htest hconsequent halternate iht ihc iha =>
    intro rest es out habove hself hrest
    have hbranch : Consumes (.expr 0) (vs ++ rest) [alternate] rest := by
      apply iha.consumes
      intro above h
      rcases Nat.eq_zero_or_pos above with rfl | hpos
      · apply hself (.inl rfl)
      · apply habove above hpos
    simp only [List.cons_append, List.append_assoc]
    apply Consumes.level (by omega)
    · apply iht.consumes
      intro above h
      apply stops_cons
      apply beq_false_of_ne
      omega
    · exact .conditional (ihc.consumes_of_closes (closes_cons fun _ => rfl)) hbranch hrest
  | weaken hlevel h ih =>
    intro rest es out habove _ hrest
    apply Consumes.level hlevel _ hrest
    apply ih.consumes
    intro above h'
    apply habove above (by omega)
  | noArgs =>
    intro rest
    exact .noArgs
  | someArgs h hs ih ihs =>
    intro rest
    rw [List.append_assoc]
    exact .someArgs (ih.consumes_of_closes (closes_moreArgs hs)) ihs
  | noMoreArgs =>
    intro rest
    exact .noMoreArgs
  | someMoreArgs h hs ih ihs =>
    intro rest
    rw [List.append_assoc]
    exact .someMoreArgs (ih.consumes_of_closes (closes_moreArgs hs)) ihs

/-! ## Determined categories -/

/-- At the beginning of tokens one thing can be read at most, and its end is known, if what is behind
it may follow such a thing. -/
def Determined {α : Type} (D : α → List Token → Prop) (Follows : List Token → Prop) : Prop :=
  ∀ {a b ts us rest rest'}, D a ts → D b us → Follows rest → Follows rest' →
    ts ++ rest = us ++ rest' → a = b ∧ rest = rest'

theorem determined_expr :
  Determined (fun e ts => Derives (.expr 0 e) ts) Closes
  := by
  intro e e' ts us rest rest' h h' hrest hrest' heq
  have hreads := ReadsOn.consumes_of_closes h.readsOn hrest
  have hreads' := ReadsOn.consumes_of_closes h'.readsOn hrest'
  rw [heq] at hreads
  obtain ⟨hes, hrests⟩ := hreads.unique hreads'
  exact ⟨List.head_eq_of_cons_eq hes, hrests⟩

/-- The tokens do not begin with a sign. -/
def Lacks (σ : Sign) (ts : List Token) : Prop :=
  ts.head? ≠ some (.sign σ)

theorem lacks_cons {σ : Sign} {t : Token} {ts : List Token} (h : t ≠ .sign σ) :
  Lacks σ (t :: ts)
  := fun ht => h (Option.some.inj ht)

theorem determined_type :
  Determined DerivesType (Lacks .openBracket)
  := by
  have hword : ∀ k k' : Keyword, k.word = k'.word → k = k' := by
    intro k k'
    cases k <;> cases k' <;> decide
  intro a b ts us rest rest' h h' hrest hrest' heq
  cases h with
  | one k =>
    cases h' with
    | one k' =>
      obtain ⟨hk, rfl⟩ := List.cons.inj heq
      rw [hword k k' (Token.word.inj hk)]
      exact ⟨rfl, rfl⟩
    | list k' =>
      obtain ⟨-, rfl⟩ := List.cons.inj heq
      exact absurd rfl hrest
  | list k =>
    cases h' with
    | one k' =>
      obtain ⟨-, rfl⟩ := List.cons.inj heq
      exact absurd rfl hrest'
    | list k' =>
      simp only [List.cons_append, List.nil_append, List.cons.injEq, Token.word.injEq,
        true_and] at heq
      rw [hword k k' heq.1]
      exact ⟨rfl, heq.2⟩

theorem determined_behindColon :
  Determined DerivesBehindColon fun rest => Lacks .colon rest ∧ Lacks .openBracket rest
  := by
  intro a b ts us rest rest' h h' hrest hrest' heq
  cases h with
  | none =>
    cases h' with
    | none => exact ⟨rfl, heq⟩
    | some _ =>
      rw [List.nil_append] at heq
      subst heq
      exact absurd rfl hrest.1
  | some h =>
    cases h' with
    | none =>
      rw [List.nil_append] at heq
      subst heq
      exact absurd rfl hrest'.1
    | some h' =>
      obtain ⟨rfl, hrests⟩ := determined_type h h' hrest.2 hrest'.2 (List.cons.inj heq).2
      exact ⟨rfl, hrests⟩

theorem determined_stmt :
  Determined DerivesStmt fun _ => True
  := by
  intro a b ts us rest rest' h h' _ _ heq
  have hcloses : ∀ r, Closes (.sign .semicolon :: r) := fun _ => closes_cons fun _ => rfl
  cases h with
  | const _ htype hinit =>
    cases h' with
    | const _ htype' hinit' =>
      simp only [List.cons_append, List.append_assoc, List.nil_append, List.cons.injEq,
        Token.word.injEq, true_and] at heq
      obtain ⟨rfl, heq⟩ := heq
      have hequals : ∀ r, Lacks .colon (.sign .equals :: r)
          ∧ Lacks .openBracket (.sign .equals :: r) :=
        fun _ => ⟨lacks_cons (by simp), lacks_cons (by simp)⟩
      obtain ⟨rfl, heq⟩ := determined_behindColon htype htype' (hequals _) (hequals _) heq
      obtain ⟨rfl, heq⟩ := determined_expr hinit hinit' (hcloses _) (hcloses _)
        (List.cons.inj heq).2
      exact ⟨rfl, (List.cons.inj heq).2⟩
    | ret _ => exact absurd (List.cons.inj heq).1 (by simp)
  | ret h =>
    cases h' with
    | const _ _ _ => exact absurd (List.cons.inj heq).1 (by simp)
    | ret h' =>
      simp only [List.cons_append, List.append_assoc, List.nil_append, List.cons.injEq,
        true_and] at heq
      obtain ⟨rfl, heq⟩ := determined_expr h h' (hcloses _) (hcloses _) heq
      exact ⟨rfl, (List.cons.inj heq).2⟩

theorem determined_param :
  Determined DerivesParam (Lacks .openBracket)
  := by
  intro a b ts us rest rest' h h' hrest hrest' heq
  cases h with
  | mk _ h =>
    cases h' with
    | mk _ h' =>
      simp only [List.cons_append, List.cons.injEq, Token.word.injEq, true_and] at heq
      obtain ⟨rfl, heq⟩ := heq
      obtain ⟨rfl, hrests⟩ := determined_type h h' hrest hrest' heq
      exact ⟨rfl, hrests⟩

/-! ## Determined lists -/

section

variable {α : Type} {D : α → List Token → Prop} {Follows Ends : List Token → Prop}

/-- What follows a thing in a list is the next one or the end of the list. -/
theorem follows_append (hnext : ∀ a ts rest, D a ts → Follows (ts ++ rest))
    (hends : ∀ rest, Ends rest → Follows rest) {as : List α} {ts rest : List Token}
    (h : DerivesAll D as ts) (hrest : Ends rest) :
  Follows (ts ++ rest)
  := by
  cases h with
  | nil => apply hends rest hrest
  | cons ha has =>
    rw [List.append_assoc]
    apply hnext _ _ _ ha

/-- A list that is not empty does not begin like what ends it. -/
theorem append_ne (hbegins : ∀ a ts rest, D a ts → ¬ Ends (ts ++ rest)) {a : α}
    {ts us rest rest' : List Token} (ha : D a ts) (hrest' : Ends rest') :
  ts ++ us ++ rest ≠ rest'
  := by
  rintro rfl
  rw [List.append_assoc] at hrest'
  apply hbegins _ _ _ ha hrest'

/-- The first thing of a list is determined by itself, and what follows it is the same then. -/
theorem Determined.first (h : Determined D Follows) {a b : α}
    {ts ts' us us' rest rest' : List Token} (ha : D a ts) (hb : D b us)
    (hts : Follows (ts' ++ rest)) (hus : Follows (us' ++ rest'))
    (heq : ts ++ ts' ++ rest = us ++ us' ++ rest') :
  a = b ∧ ts' ++ rest = us' ++ rest'
  := by
  rw [List.append_assoc, List.append_assoc] at heq
  apply h ha hb hts hus heq

/-- Things in a row are determined when each of them is, another one may follow it, and what ends the
list may follow it too but is not the beginning of one. -/
theorem Determined.all (h : Determined D Follows)
    (hnext : ∀ a ts rest, D a ts → Follows (ts ++ rest)) (hends : ∀ rest, Ends rest → Follows rest)
    (hbegins : ∀ a ts rest, D a ts → ¬ Ends (ts ++ rest)) :
  Determined (DerivesAll D) Ends
  := by
  intro as bs ts us rest rest' has hbs hrest hrest' heq
  induction has generalizing bs us with
  | nil =>
    cases hbs with
    | nil => exact ⟨rfl, heq⟩
    | cons hb hbs => exact absurd heq.symm (append_ne hbegins hb hrest)
  | cons ha has ih =>
    cases hbs with
    | nil => exact absurd heq (append_ne hbegins ha hrest')
    | cons hb hbs =>
      obtain ⟨rfl, heq⟩ := h.first ha hb (follows_append hnext hends has hrest)
        (follows_append hnext hends hbs hrest') heq
      obtain ⟨rfl, hrests⟩ := ih hbs heq
      exact ⟨rfl, hrests⟩

/-- Things with commas between them are determined when each of them is and a comma or what ends the
list may follow it. -/
theorem Determined.separated (h : Determined D Follows)
    (hcomma : ∀ rest, Follows (.sign .comma :: rest)) (hends : ∀ rest, Ends rest → Follows rest)
    (hlacks : ∀ rest, Ends rest → Lacks .comma rest)
    (hbegins : ∀ a ts rest, D a ts → ¬ Ends (ts ++ rest)) :
  Determined (DerivesSeparated D) Ends
  := by
  have hbehind : Determined (BehindComma D) Follows := by
    intro a b ts us rest rest' ha hb hrest hrest' heq
    cases ha with
    | mk ha =>
      cases hb with
      | mk hb => exact h ha hb hrest hrest' (List.cons.inj heq).2
  have hnext : ∀ a ts rest, BehindComma D a ts → Follows (ts ++ rest) := by
    intro a ts rest ha
    cases ha with
    | mk _ => apply hcomma
  have hall : Determined (DerivesAll (BehindComma D)) Ends := by
    apply hbehind.all hnext hends
    intro a ts rest ha hrest
    cases ha with
    | mk _ => exact hlacks _ hrest rfl
  intro as bs ts us rest rest' has hbs hrest hrest' heq
  cases has with
  | nil =>
    cases hbs with
    | nil => exact ⟨rfl, heq⟩
    | cons hb hbs => exact absurd heq.symm (append_ne hbegins hb hrest)
  | cons ha has =>
    cases hbs with
    | nil => exact absurd heq (append_ne hbegins ha hrest')
    | cons hb hbs =>
      obtain ⟨rfl, heq⟩ := h.first ha hb (follows_append hnext hends has hrest)
        (follows_append hnext hends hbs hrest') heq
      obtain ⟨rfl, hrests⟩ := hall has hbs hrest hrest' heq
      exact ⟨rfl, hrests⟩

end

/-! ## Functions and programs -/

/-- The tokens begin with a sign. -/
def Begins (σ : Sign) (ts : List Token) : Prop :=
  ts.head? = some (.sign σ)

theorem begins_cons {σ : Sign} {ts : List Token} :
  Begins σ (.sign σ :: ts)
  := rfl

theorem Begins.lacks {σ τ : Sign} {ts : List Token} (h : Begins σ ts) (hne : σ ≠ τ) :
  Lacks τ ts
  := by
  intro h'
  rw [Begins, h'] at h
  apply hne (Token.sign.inj (Option.some.inj h)).symm

theorem determined_params :
  Determined (DerivesSeparated DerivesParam) (Begins .closeParen)
  := by
  apply determined_param.separated
  · intro rest
    apply lacks_cons (by simp)
  · intro rest h
    apply h.lacks (by decide)
  · intro rest h
    apply h.lacks (by decide)
  · intro p ts rest h hrest
    cases h with
    | mk _ _ => exact absurd (Option.some.inj hrest) (by simp)

theorem determined_body :
  Determined (DerivesAll DerivesStmt) (Begins .closeBrace)
  := by
  apply determined_stmt.all
  · intro s ts rest _
    trivial
  · intro rest _
    trivial
  · intro s ts rest h hrest
    cases h with
    | const _ _ _ => exact absurd (Option.some.inj hrest) (by simp)
    | ret _ => exact absurd (Option.some.inj hrest) (by simp)

theorem determined_function :
  Determined DerivesFunction fun _ => True
  := by
  intro a b ts us rest rest' h h' _ _ heq
  cases h with
  | mk _ hparams hreturn hbody =>
    cases h' with
    | mk _ hparams' hreturn' hbody' =>
      simp only [List.cons_append, List.append_assoc, List.nil_append, List.cons.injEq,
        Token.word.injEq, true_and] at heq
      obtain ⟨rfl, heq⟩ := heq
      obtain ⟨rfl, heq⟩ := determined_params hparams hparams' begins_cons begins_cons heq
      have hbrace : ∀ r, Lacks .colon (.sign .openBrace :: r)
          ∧ Lacks .openBracket (.sign .openBrace :: r) :=
        fun _ => ⟨lacks_cons (by simp), lacks_cons (by simp)⟩
      obtain ⟨rfl, heq⟩ := determined_behindColon hreturn hreturn' (hbrace _) (hbrace _)
        (List.cons.inj heq).2
      obtain ⟨rfl, heq⟩ := determined_body hbody hbody' begins_cons begins_cons
        (List.cons.inj heq).2
      exact ⟨rfl, (List.cons.inj heq).2⟩

theorem determined_functions :
  Determined (DerivesAll DerivesFunction) fun rest => rest = []
  := by
  apply determined_function.all
  · intro f ts rest _
    trivial
  · intro rest _
    trivial
  · intro f ts rest h hrest
    cases h with
    | mk _ _ _ _ => exact absurd hrest (by simp)

/-- A text is read as one program at most. -/
theorem Reads.unique {text : String} {p q : Program} (hp : Reads text p) (hq : Reads text q) :
  p = q
  := by
  obtain ⟨ts, hts, hp⟩ := hp
  obtain ⟨us, hus, hq⟩ := hq
  obtain rfl := hts.unique hus
  have hfunctions := (determined_functions hp hq rfl rfl rfl).1
  obtain ⟨fs⟩ := p
  obtain ⟨gs⟩ := q
  apply congrArg Program.mk hfunctions

end Patchboard.Grammar
