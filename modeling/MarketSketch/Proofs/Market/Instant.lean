import MarketSketch.Market.Timestamp
import MarketSketch.Proofs.Market.Calendar
import MarketSketch.Proofs.Number.Decimal
import MarketSketch.Proofs.Text.Blank

/-! Texts that name an instant. A `TimeForm` is a way to write one: as local time with an offset, as
universal time with its letter, or as universal time without a mark. Whatever the form, the fraction
of the second and the white space around it, the instant that was written is read. -/

namespace MarketSketch

section Figures

def figures (width n : Nat) : List Char := (paddedTo width n).toList

variable {width n : Nat}

theorem figures_eq : figures width n =
    List.replicate (width - (Nat.toDigits 10 n).length) '0' ++ Nat.toDigits 10 n :=
  String.toList_ofList

theorem isDigit_of_mem_figures {c : Char} (h : c ∈ figures width n) : isDigit c = true := by
  rw [figures_eq] at h
  rcases List.mem_append.mp h with hzero | hdigit
  · rw [List.eq_of_mem_replicate hzero]
    rfl
  · exact isDigit_of_mem_toDigits hdigit

theorem spelled_figures : spelled (figures width n) = n := by
  rw [figures_eq, spelled_zeros_append, spelled_toDigits]

theorem length_figures (hpos : 0 < width) (hn : n < 10 ^ width) :
    (figures width n).length = width := by
  have hlen := (Nat.length_toDigits_le_iff (by decide) hpos).mpr hn
  rw [figures_eq, List.length_append, List.length_replicate, Nat.sub_add_cancel hlen]

theorem exists_figures_cons (width n : Nat) :
    ∃ c cs, figures width n = c :: cs ∧ isDigit c = true := by
  have hne : figures width n ≠ [] := by
    rw [figures_eq]
    exact List.append_ne_nil_of_right_ne_nil _ Nat.toDigits_ne_nil
  obtain ⟨c, cs, heq⟩ := List.exists_cons_of_ne_nil hne
  exact ⟨c, cs, heq, isDigit_of_mem_figures (heq ▸ List.mem_cons_self)⟩

theorem isBlank_of_isDigit {c : Char} (h : isDigit c = true) : Text.isBlank c = false := by
  obtain ⟨hlow, hhigh⟩ : 48 ≤ c.toNat ∧ c.toNat ≤ 57 := Char.isDigit_iff_toNat.mp h
  exact Text.isBlank_of_visible (by omega) (by omega)

theorem trimStart_figures (rest : List Char) :
    Text.trimStart (figures width n ++ rest) = figures width n ++ rest := by
  obtain ⟨c, cs, heq, hc⟩ := exists_figures_cons width n
  rw [heq]
  exact Text.trimStart_of_head fun d hd => Option.some.inj hd ▸ isBlank_of_isDigit hc

end Figures

section Fields

variable {n : Nat}

theorem digitField?_figures {least most : Nat} (hpos : 0 < most) (hleast : least ≤ most)
    (hn : n < 10 ^ most) (rest : List Char) :
    digitField? least most (figures most n ++ rest) = some (n, rest) := by
  have hlen := length_figures hpos hn
  have htake : (figures most n ++ rest).take most = figures most n := List.take_left' hlen
  have hdrop : (figures most n ++ rest).drop most = rest := List.drop_left' hlen
  have hrun : (figures most n).takeWhile isDigit = figures most n :=
    List.takeWhile_eq_self_iff.mpr fun _ => isDigit_of_mem_figures
  simp only [digitField?, htake, hrun, hlen, hdrop, spelled_figures, if_neg (not_lt.mpr hleast)]

theorem twoDigits_figures (hn : n < 100) (rest : List Char) :
    digitField? 2 2 (figures 2 n ++ rest) = some (n, rest) :=
  digitField?_figures (by decide) le_rfl hn rest

theorem shortField?_figures (hn : n < 100) (rest : List Char) :
    shortField? (figures 2 n ++ rest) = some (n, rest) := by
  rw [shortField?, trimStart_figures]
  exact digitField?_figures (by decide) (by decide) hn rest

theorem year?_figures (hn : n < 10000) (rest : List Char) :
    year? (figures 4 n ++ rest) = some ((n : Int), rest) := by
  obtain ⟨c, cs, heq, hc⟩ := exists_figures_cons 4 n
  have hfield : digitField? 1 4 (figures 4 n ++ rest) = some (n, rest) :=
    digitField?_figures (by decide) (by decide) hn rest
  unfold year?
  rw [trimStart_figures, heq, List.cons_append]
  split
  next h => cases (List.cons.inj h).1 ▸ hc
  next h => cases (List.cons.inj h).1 ▸ hc
  next =>
    rw [← List.cons_append, ← heq, hfield]
    rfl

theorem signRun_figures (width n : Nat) (rest : List Char) :
    signRun (figures width n ++ rest) = (false, figures width n ++ rest) := by
  obtain ⟨c, cs, heq, hc⟩ := exists_figures_cons width n
  rw [heq, List.cons_append]
  unfold signRun
  split
  next h => cases (List.cons.inj h).1 ▸ hc
  next h => cases (List.cons.inj h).1 ▸ hc
  next => rfl

theorem char?_self (c : Char) (rest : List Char) : char? c (c :: rest) = some rest := if_pos rfl

def IsFraction (cs : List Char) : Prop :=
  cs = [] ∨ ∃ digits, digits ≠ [] ∧ (∀ c ∈ digits, isDigit c = true) ∧ cs = '.' :: digits

def EndsSeconds (rest : List Char) : Prop := ∀ c ∈ rest.head?, isDigit c = false ∧ c ≠ '.'

theorem fractionOfSecond?_append {fraction rest : List Char} (h : IsFraction fraction)
    (hrest : EndsSeconds rest) : fractionOfSecond? (fraction ++ rest) = some rest := by
  rcases h with rfl | ⟨digits, hne, hdigits, rfl⟩
  · rw [List.nil_append]
    unfold fractionOfSecond?
    split
    next => exact absurd rfl (hrest '.' rfl).2
    next => rfl
  · have hrun := digitRun_append hdigits fun c hc => (hrest c hc).1
    rw [digitRun, List.span_eq_takeWhile_dropWhile] at hrun
    obtain ⟨htake, hdrop⟩ := Prod.mk.inj hrun
    rw [List.cons_append, fractionOfSecond?, htake, hdrop, if_neg (by simpa using hne)]

end Fields

namespace DateTime

variable {t : DateTime} {fraction rest : List Char}

def clockChars (t : DateTime) (rest : List Char) : List Char :=
  figures 2 t.hour ++ ':' :: (figures 2 t.minute ++ ':' :: (figures 2 t.second ++ rest))

def chars (t : DateTime) (between : Char) (rest : List Char) : List Char :=
  figures 4 t.year.toNat ++
    '-' :: (figures 2 t.month ++ '-' :: (figures 2 t.day ++ between :: t.clockChars rest))

/-- A time that a clock can show, in a year of four figures. -/
structure HasFigures (t : DateTime) : Prop where
  valid : t.valid = true
  year_nonneg : 0 ≤ t.year
  year_le : t.year ≤ 9999

theorem HasFigures.bounds (h : t.HasFigures) : t.year.toNat < 10000 ∧ t.month < 100 ∧ t.day < 100 ∧
    t.hour < 100 ∧ t.minute < 100 ∧ t.second < 100 := by
  have hvalid := h.valid
  have hdays := daysInMonth_le t.year t.month
  have hyear := h.year_le
  simp only [DateTime.valid, Bool.and_eq_true, decide_eq_true_eq] at hvalid
  omega

theorem HasFigures.cast_year (h : t.HasFigures) : (t.year.toNat : Int) = t.year :=
  Int.toNat_of_nonneg h.year_nonneg

theorem offsetInstant?_chars (h : t.HasFigures) {between : Char}
    (hbetween : between = 'T' ∨ between = 't' ∨ between = ' ') (hfraction : IsFraction fraction)
    (hrest : EndsSeconds rest) : offsetInstant? (t.chars between (fraction ++ rest)) =
      (offset? rest).bind fun (offset, rest) =>
        if rest.isEmpty then some (t.seconds - offset) else none := by
  obtain ⟨hyear, hmonth, hday, hhour, hminute, hsecond⟩ := h.bounds
  have hfour : ∀ rest, digitField? 4 4 (figures 4 t.year.toNat ++ rest) =
      some (t.year.toNat, rest) := digitField?_figures (by decide) le_rfl hyear
  simp only [offsetInstant?, chars, clockChars, hfour, twoDigits_figures hmonth,
    twoDigits_figures hday, twoDigits_figures hhour, twoDigits_figures hminute,
    twoDigits_figures hsecond, char?_self, if_pos hbetween,
    fractionOfSecond?_append hfraction hrest, bind, Option.bind_some]
  simp only [h.cast_year, h.valid, Bool.true_and]

def clockTail? (year : Int) (month day : Nat) (cs : List Char) : Option Int := do
  let (hour, cs) ← shortField? cs
  let cs ← char? ':' cs
  let (minute, cs) ← shortField? cs
  let cs ← char? ':' cs
  let (second, cs) ← shortField? cs
  let cs ← fractionOfSecond? cs
  let t : DateTime := ⟨year, month, day, hour, minute, second⟩
  if t.valid && cs.isEmpty then some t.seconds else none

theorem plainInstant?_chars (h : t.HasFigures) (separator : DateSeparator) (between : Char) :
    plainInstant? separator (t.chars between rest) =
      (separator.skip? (between :: t.clockChars rest)).bind (clockTail? t.year t.month t.day) := by
  obtain ⟨hyear, hmonth, hday, -⟩ := h.bounds
  simp only [plainInstant?, chars, year?_figures hyear, shortField?_figures hmonth,
    shortField?_figures hday, char?_self, bind, Option.bind_some, h.cast_year]
  rfl

theorem clockTail?_clockChars (h : t.HasFigures) (hfraction : IsFraction fraction) :
    clockTail? t.year t.month t.day (t.clockChars fraction) = some t.seconds := by
  obtain ⟨-, -, -, hhour, hminute, hsecond⟩ := h.bounds
  have hnothing : EndsSeconds [] := nofun
  have hend : fractionOfSecond? fraction = some [] := by
    simpa using fractionOfSecond?_append hfraction hnothing
  simp only [clockTail?, clockChars, shortField?_figures hhour, shortField?_figures hminute,
    shortField?_figures hsecond, char?_self, hend, bind, Option.bind_some]
  exact if_pos (by rw [h.valid]; rfl)

end DateTime

def DateSeparator.char : DateSeparator → Char
  | letter => 'T'
  | blanks => ' '

namespace DateTime

variable {t : DateTime} {fraction rest : List Char}

theorem skip?_clockChars (separator : DateSeparator) :
    separator.skip? (separator.char :: t.clockChars rest) = some (t.clockChars rest) := by
  cases separator with
  | letter => rfl
  | blanks => exact congrArg some (trimStart_figures _)

theorem plainInstants_chars (h : t.HasFigures) (separator : DateSeparator)
    (hfraction : IsFraction fraction) :
    (plainInstant? .letter (t.chars separator.char fraction)).or
      (plainInstant? .blanks (t.chars separator.char fraction)) = some t.seconds := by
  have hown : plainInstant? separator (t.chars separator.char fraction) = some t.seconds := by
    rw [plainInstant?_chars h, skip?_clockChars, Option.bind_some,
      clockTail?_clockChars h hfraction]
  cases separator with
  | letter => rw [hown, Option.some_or]
  | blanks =>
    have hletter : plainInstant? .letter (t.chars ' ' fraction) = none := plainInstant?_chars h _ _
    rw [hown]
    show (plainInstant? .letter (t.chars ' ' fraction)).or _ = _
    rw [hletter, Option.none_or]

theorem decimalText?_chars (between : Char) : decimalText? (t.chars between rest) = none := by
  have hrun : digitRun (t.chars between rest) = (figures 4 t.year.toNat, '-' :: _) :=
    digitRun_append (fun _ => isDigit_of_mem_figures) fun c hc => Option.some.inj hc ▸ rfl
  obtain ⟨c, cs, heq, -⟩ := exists_figures_cons 4 t.year.toNat
  simp only [decimalText?, hrun, heq, List.isEmpty_cons, Bool.false_and]
  rfl

theorem read?_chars (between : Char) :
    Double.read? (String.ofList (t.chars between rest)) = none := by
  have hsign : signRun (t.chars between rest) = (false, t.chars between rest) :=
    signRun_figures 4 _ _
  have hhyphen : '-' ∈ (t.chars between rest).map Char.toLower :=
    List.mem_map.mpr ⟨'-', by simp [chars], rfl⟩
  have hname (name : List Char) (h : '-' ∉ name) :
      (t.chars between rest).map Char.toLower ≠ name := fun heq => h (heq ▸ hhyphen)
  have hnan := hname "nan".toList (by decide)
  have hinf := hname "inf".toList (by decide)
  have hinfinity := hname "infinity".toList (by decide)
  simp only [Double.read?, String.toList_ofList, hsign, if_neg hnan, hinf, hinfinity, or_self,
    if_false, decimalText?_chars, Option.map_none]

theorem bare_chars (between : Char) (hrest : ∀ c ∈ rest, Text.isBlank c = false) :
    Text.Bare (t.chars between rest) := by
  obtain ⟨c, cs, heq, hc⟩ := exists_figures_cons 4 t.year.toNat
  have htail : Text.Bare (figures 2 t.second ++ rest) := by
    refine Text.bare_of_forall ?_ fun d hd => ?_
    · obtain ⟨d, ds, hds, -⟩ := exists_figures_cons 2 t.second
      simp [hds]
    · exact (List.mem_append.mp hd).elim
        (fun hfigure => isBlank_of_isDigit (isDigit_of_mem_figures hfigure)) (hrest d)
  -- the character between date and time may be a blank, so only the two ends are looked at
  have hsplit : t.chars between rest = c :: (cs ++ '-' :: (figures 2 t.month ++ '-' ::
      (figures 2 t.day ++ between :: (figures 2 t.hour ++ ':' :: (figures 2 t.minute ++ [':'])))))
        ++ (figures 2 t.second ++ rest) := by
    simp [chars, clockChars, heq]
  rw [hsplit]
  exact htail.append_left fun d hd => Option.some.inj hd ▸ isBlank_of_isDigit hc

end DateTime

/-- What stands between date and time beside an offset: the letter, also in lower case, or a blank
for the eye. -/
inductive Joint where
  | upper
  | lower
  | blank

def Joint.char : Joint → Char
  | upper => 'T'
  | lower => 't'
  | blank => ' '

/-- A way to write an instant: as local time with its offset in minutes, as universal time with
its letter, or as universal time without a mark. -/
inductive TimeForm where
  | offset (joint : Joint) (west : Bool) (minutes : Fin 1440)
  | universal (joint : Joint) (lower : Bool)
  | bare (separator : DateSeparator)

namespace TimeForm

def ahead : TimeForm → Int
  | offset _ west minutes => if west then -(60 * minutes.val) else 60 * minutes.val
  | universal _ _ => 0
  | bare _ => 0

def between : TimeForm → Char
  | offset joint _ _ => joint.char
  | universal joint _ => joint.char
  | bare separator => separator.char

def mark : TimeForm → List Char
  | offset _ west minutes =>
    (if west then '-' else '+') ::
      (figures 2 (minutes.val / 60) ++ ':' :: figures 2 (minutes.val % 60))
  | universal _ lower => [if lower then 'z' else 'Z']
  | bare _ => []

def clock (f : TimeForm) (s : Int) : DateTime := DateTime.ofSeconds (s + f.ahead)

def write (f : TimeForm) (s : Int) (fraction : List Char) : List Char :=
  (f.clock s).chars f.between (fraction ++ f.mark)

variable {f : TimeForm}

theorem seconds_clock (f : TimeForm) (s : Int) : (f.clock s).seconds = s + f.ahead :=
  DateTime.seconds_ofSeconds _

theorem hasFigures_clock {s : Int} (hleast : 0 ≤ (f.clock s).year)
    (hmost : (f.clock s).year ≤ 9999) : (f.clock s).HasFigures :=
  ⟨DateTime.valid_ofSeconds (le_trans (by decide) hleast) (hmost.trans (by decide)), hleast, hmost⟩

theorem between_cases (f : TimeForm) :
    f.between = 'T' ∨ f.between = 't' ∨ f.between = ' ' := by
  have hjoint (joint : Joint) : joint.char = 'T' ∨ joint.char = 't' ∨ joint.char = ' ' := by
    cases joint <;> decide
  cases f with
  | offset joint west minutes => exact hjoint joint
  | universal joint lower => exact hjoint joint
  | bare separator => cases separator <;> decide

theorem endsSeconds_mark (f : TimeForm) : EndsSeconds f.mark := by
  intro c hc
  cases f with
  | offset joint west minutes => cases west <;> cases hc <;> decide
  | universal joint lower => cases lower <;> cases hc <;> decide
  | bare separator => cases hc

theorem offset?_signed {sign : Char} (hsign : sign = '+' ∨ sign = '-') {hours minutes : Nat}
    (hhours : hours < 24) (hminutes : minutes < 60) :
    offset? (sign :: (figures 2 hours ++ ':' :: figures 2 minutes)) =
      some (if sign = '+' then ((hours * 60 + minutes) * 60 : Int)
        else -((hours * 60 + minutes) * 60), []) := by
  have hrange : (decide (59 < minutes) || decide (23 < hours)) = false := by
    simp only [Bool.or_eq_false_iff, decide_eq_false_iff_not]
    omega
  have hlast : digitField? 2 2 (figures 2 minutes) = some (minutes, []) := by
    simpa using twoDigits_figures (n := minutes) (by omega) []
  have hletter : ¬ (sign = 'Z' ∨ sign = 'z') := by
    rcases hsign with rfl | rfl <;> decide
  have hmark : sign = '+' ∨ sign = '-' ∨ sign = minusSign := hsign.imp_right .inl
  simp only [offset?, if_neg hletter, if_pos hmark,
    twoDigits_figures (hhours.trans (by decide)), char?_self, hlast, bind, Option.bind_some, hrange]
  rfl

theorem offset?_offset (joint : Joint) (west : Bool) (minutes : Fin 1440) :
    offset? (offset joint west minutes).mark = some ((offset joint west minutes).ahead, []) := by
  have hparts : ((minutes.val / 60 : Nat) * 60 + (minutes.val % 60 : Nat) : Int) * 60 =
      60 * minutes.val := by omega
  have hsigned (sign : Char) (h : sign = '+' ∨ sign = '-') := offset?_signed h
    (show minutes.val / 60 < 24 by omega) (show minutes.val % 60 < 60 by omega)
  simp only [hparts] at hsigned
  cases west with
  | false => exact hsigned '+' (.inl rfl)
  | true => exact hsigned '-' (.inr rfl)

theorem offset?_universal (joint : Joint) (lower : Bool) :
    offset? (universal joint lower).mark = some ((universal joint lower).ahead, []) := by
  cases lower <;> rfl

variable {s : Int} {fraction : List Char}

theorem offsetInstant?_write (h : (f.clock s).HasFigures) (hfraction : IsFraction fraction) :
    offsetInstant? (f.write s fraction) = (offset? f.mark).bind fun (seconds, rest) =>
      if rest.isEmpty then some (s + f.ahead - seconds) else none := by
  rw [write, DateTime.offsetInstant?_chars h f.between_cases hfraction f.endsSeconds_mark,
    seconds_clock]

theorem offsetInstant?_of_mark (h : (f.clock s).HasFigures) (hfraction : IsFraction fraction)
    (hmark : offset? f.mark = some (f.ahead, [])) :
    offsetInstant? (f.write s fraction) = some s := by
  rw [offsetInstant?_write h hfraction, hmark]
  exact congrArg some (Int.add_sub_cancel s f.ahead)

theorem instant_write (f : TimeForm) (h : (f.clock s).HasFigures)
    (hfraction : IsFraction fraction) :
    (offsetInstant? (f.write s fraction)).or ((plainInstant? .letter (f.write s fraction)).or
      (plainInstant? .blanks (f.write s fraction))) = some s := by
  cases f with
  | offset joint west minutes =>
    rw [offsetInstant?_of_mark h hfraction (offset?_offset joint west minutes), Option.some_or]
  | universal joint lower =>
    rw [offsetInstant?_of_mark h hfraction (offset?_universal joint lower), Option.some_or]
  | bare separator =>
    have hnone : offsetInstant? ((bare separator).write s fraction) = none :=
      offsetInstant?_write h hfraction
    have hplain := DateTime.plainInstants_chars h separator hfraction
    have hseconds : ((bare separator).clock s).seconds = s :=
      (seconds_clock _ s).trans (Int.add_zero s)
    rw [hnone, Option.none_or, write, mark, List.append_nil]
    exact hplain.trans (congrArg some hseconds)

theorem isBlank_of_mem_end (f : TimeForm) (hfraction : IsFraction fraction) {c : Char}
    (hc : c ∈ fraction ++ f.mark) : Text.isBlank c = false := by
  rcases List.mem_append.mp hc with hmem | hmem
  · rcases hfraction with rfl | ⟨digits, -, hdigits, rfl⟩
    · cases hmem
    · rcases List.mem_cons.mp hmem with rfl | hdigit
      · rfl
      · exact isBlank_of_isDigit (hdigits c hdigit)
  · cases f with
    | offset joint west minutes =>
      rcases List.mem_cons.mp hmem with rfl | hmem
      · cases west <;> rfl
      · rcases List.mem_append.mp hmem with hdigit | hmem
        · exact isBlank_of_isDigit (isDigit_of_mem_figures hdigit)
        · rcases List.mem_cons.mp hmem with rfl | hdigit
          · rfl
          · exact isBlank_of_isDigit (isDigit_of_mem_figures hdigit)
    | universal joint lower =>
      rw [List.mem_singleton.mp hmem]
      cases lower <;> rfl
    | bare separator => cases hmem

end TimeForm

/-- What is written at an instant is read as that instant, in every form, with any fraction of the
second and any white space around it. The clock of the form has to show a year of four figures. -/
theorem Timestamp.ofText?_write (f : TimeForm) {s : Int} {fraction before after : List Char}
    (hyear : 0 ≤ (f.clock s).year ∧ (f.clock s).year ≤ 9999) (hfraction : IsFraction fraction)
    (hbefore : Text.Blanks before) (hafter : Text.Blanks after) :
    ofText? (String.ofList (before ++ (f.write s fraction ++ after))) = some s := by
  have hbare : Text.Bare (f.write s fraction) :=
    DateTime.bare_chars _ fun _ => f.isBlank_of_mem_end hfraction
  have htrim : Text.trim (String.ofList (before ++ (f.write s fraction ++ after))) =
      String.ofList (f.write s fraction) := by
    rw [Text.trim, String.toList_ofList, Text.trimChars_between hbefore hafter hbare]
  have hshown : (String.ofList (f.write s fraction)).isEmpty = false := by
    rw [Bool.eq_false_iff, Ne, String.isEmpty_iff, String.ofList_eq_empty_iff]
    exact hbare.ne_nil
  have hnumber : Double.read? (String.ofList (f.write s fraction)) = none :=
    DateTime.read?_chars _
  have hinstant := f.instant_write (TimeForm.hasFigures_clock hyear.1 hyear.2) hfraction
  simp only [ofText?, htrim, hshown, hnumber, String.toList_ofList, hinstant]
  rfl

example : Timestamp.ofText? "2023-11-14T23:13:20.5+01:00" = some 1700000000 := by decide

theorem Timestamp.ofText?_write_of_last_second :
    IsFraction ['.', '2', '5'] ∧ Text.Blanks [' '] ∧ Text.Blanks ['\n'] ∧
      Timestamp.ofText? " 1970-01-01T00:59:59.25+01:00\n" = some (-1) ∧
      Timestamp.ofText? " 1969-12-31 23:59:59.25\n" = some (-1) := by
  have hfraction : IsFraction ['.', '2', '5'] :=
    .inr ⟨['2', '5'], by decide, List.all_eq_true.mp rfl, rfl⟩
  have hbefore : Text.Blanks [' '] := Text.blanks_of_all rfl
  have hafter : Text.Blanks ['\n'] := Text.blanks_of_all rfl
  have heast := ofText?_write (.offset .upper false 60) (s := -1) (by decide) hfraction hbefore
    hafter
  have hbare := ofText?_write (.bare .blanks) (s := -1) (by decide) hfraction hbefore hafter
  exact ⟨hfraction, hbefore, hafter, heast, hbare⟩

end MarketSketch
