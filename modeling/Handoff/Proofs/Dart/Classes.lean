import Handoff.Proofs.Dart.Lines
import Handoff.Proofs.Emission
import Handoff.Proofs.Template.Scaffold
import Handoff.Proofs.Text.CodeLines

/-!
The classes of an application.

The lines of an application are those of its scaffold, a line that uses the class of each root, and
the lines of the classes.  `usedOn` and `classesIn` read classes off lines: the first says which one
a line uses as a constant, and the second which ones are declared at the left margin, each with what
its method returns.  Whatever users write, in a widget there is no line that reads as either of
them, nor one that ends the method (`Inner`), so what is read is what was written.

The main statement is `applicationCode_of_build`.
-/

namespace Handoff.Dart

open Design (Node typeNames namedRoots)
open Text (OneLine oneLine_append HasLines codeLines endedLines declaredOn)

/-! ## Reading lines -/

/-- The class that a line uses, if all that it has behind its margin is such a constant. -/
def usedOn (line : String) : Option String :=
  Text.between? keyword "()," (String.ofList (unindented line.toList))

/-- What stands before the value of a method of a class. -/
def returnWord : String := "    return "

/-- What the method in the lines of a class returns.  The method ends with the first line that is
its closing bracket alone. -/
def returned? (lines : List String) : Option String :=
  Text.between? returnWord ";" ("\n".intercalate
    ((lines.dropWhile (!returnWord.toList.isPrefixOf ·.toList)).takeWhile (· != "  \x7d")))

/-- The classes that are declared in the lines of a code, each with what its method returns. -/
def classesIn : List String → List (String × Option String)
  | [] => []
  | line :: rest =>
    (declaredOn "class ".toList line.toList).map (fun name => (name, returned? rest)) ++
      classesIn rest

/-- The line that makes the library of filters known. -/
def uiImport : String := "import 'dart:ui';"

variable {line body name typeName : String} {front rest : List String}

theorem usedOn_of_calm (calm : Calm line.toList) : usedOn line = none := by
  refine if_neg fun ⟨starts, _⟩ => calm ?_
  rw [String.toList_ofList] at starts
  exact List.isPrefixOf_iff_prefix.mp starts

theorem usedOn_of_getLast? (other : line.toList.getLast? ≠ some ',') : usedOn line = none := by
  refine if_neg fun ⟨_, ends⟩ => other ?_
  rw [String.toList_ofList (l := unindented line.toList)] at ends
  obtain ⟨before, own⟩ :=
    (List.isSuffixOf_iff_suffix.mp ends).trans (List.dropWhile_suffix (· == ' '))
  rw [← own]
  simp

theorem usedOn_spaces (width : Nat) (name : String) :
    usedOn (Text.spaces width ++ (keyword ++ name ++ "(),")) = some name := by
  have start : (keyword ++ name ++ "(),").toList.head? ≠ some ' ' := by simp [keyword]
  rw [usedOn, String.toList_append, unindented_spaces start, String.ofList_toList,
    Text.between?_append]

/-- Only a line that begins with the letter declares a class. -/
theorem declaredOn_of_head? (other : line.toList.head? ≠ some 'c') :
    declaredOn "class ".toList line.toList = [] := by
  refine if_neg fun starts => other ?_
  obtain ⟨others, own⟩ := List.isPrefixOf_iff_prefix.mp starts
  rw [← own]
  rfl

/-- Lines that declare nothing are passed over. -/
theorem classesIn_append
    (silent : ∀ line ∈ front, declaredOn "class ".toList line.toList = []) :
    classesIn (front ++ rest) = classesIn rest := by
  induction front with
  | nil => rfl
  | cons line front ih =>
      obtain ⟨own, others⟩ := List.forall_mem_cons.mp silent
      rw [List.cons_append, classesIn, own, List.map_nil, List.nil_append, ih others]

/-- Lines that declare a single class, whatever its method returns. -/
theorem exists_classesIn_append
    (single : front.flatMap (fun line => declaredOn "class ".toList line.toList) = [name]) :
    ∃ value, classesIn (front ++ rest) = (name, value) :: classesIn rest := by
  induction front with
  | nil => cases single
  | cons line front ih =>
      rw [List.flatMap_cons, List.append_eq_singleton_iff] at single
      rw [List.cons_append, classesIn]
      rcases single with ⟨none, later⟩ | ⟨own, others⟩
      · rw [none, List.map_nil, List.nil_append]
        exact ih later
      · rw [own, classesIn_append (List.flatMap_eq_nil_iff.mp others)]
        exact ⟨_, rfl⟩

/-! ## Methods -/

/-- A line inside a method: behind the margin of a statement it is not the use of a class. -/
def Inner (line : String) : Prop :=
  Calm line.toList ∧ List.replicate 4 ' ' <+: line.toList

theorem Inner.head? (inner : Inner line) : line.toList.head? = some ' ' := by
  obtain ⟨-, others, own⟩ := inner
  rw [← own]
  rfl

theorem Inner.ne_closing (inner : Inner line) : line ≠ "  \x7d" := by
  rintro rfl
  exact absurd inner.2 (by decide)

/-- The lines that return a widget are inside the method. -/
theorem exists_codeLines_return (hangs : Hangs 4 body) :
    ∃ first back, codeLines (returnWord ++ body ++ ";") = first :: back ∧
      returnWord.toList <+: first.toList ∧ ∀ line ∈ first :: back, Inner line := by
  obtain ⟨first, back, lines, calm, others⟩ :=
    hangs.ended (by decide : ';' ∉ keyword.toList) (by decide)
  have margin : returnWord.toList = List.replicate 4 ' ' ++ ([] ++ 'r' :: "eturn ".toList) := by
    decide
  have quiet : Calm (returnWord.toList ++ first) := by
    rw [margin]
    simp only [List.append_assoc, List.cons_append]
    exact calm_margin (calm_append (by decide) (by decide)) 4
  have chars : (returnWord ++ body ++ ";").toList =
      returnWord.toList ++ (body ++ String.singleton ';').toList := by simp
  have whole := Text.splitChars_append_of_not_mem
    (by decide : '\n' ∉ returnWord.toList) lines
  refine ⟨String.ofList (returnWord.toList ++ first), back.map String.ofList, ?_, ?_, ?_⟩
  · rw [codeLines, chars, whole, List.map_cons]
  · rw [String.toList_ofList]
    exact List.prefix_append _ _
  · refine List.forall_mem_cons.mpr ⟨?_, List.forall_mem_map.mpr fun line member => ?_⟩
    · rw [Inner, String.toList_ofList]
      exact ⟨quiet, (by decide : _ <+: returnWord.toList).trans (List.prefix_append _ _)⟩
    · rw [Inner, String.toList_ofList]
      exact others line member

/-- What a method returns is read from the lines of the class. -/
theorem returned?_lines (hangs : Hangs 4 body)
    (before : ∀ line ∈ front, ¬ returnWord.toList <+: line.toList) :
    returned? (front ++ (codeLines (returnWord ++ body ++ ";") ++ "  \x7d" :: rest)) =
      some body := by
  obtain ⟨first, back, own, starts, inner⟩ := exists_codeLines_return hangs
  have passed : ∀ line ∈ front, (!returnWord.toList.isPrefixOf line.toList) = true := by
    intro line member
    rw [Bool.not_eq_true', Bool.eq_false_iff]
    exact fun begins => before line member (List.isPrefixOf_iff_prefix.mp begins)
  have found : (first :: (back ++ "  \x7d" :: rest)).dropWhile
      (!returnWord.toList.isPrefixOf ·.toList) = first :: (back ++ "  \x7d" :: rest) := by
    refine List.dropWhile_cons_of_neg ?_
    rw [List.isPrefixOf_iff_prefix.mpr starts]
    decide
  have kept : ∀ line ∈ first :: back, (line != "  \x7d") = true :=
    fun line member => bne_iff_ne.mpr (inner line member).ne_closing
  rw [returned?, List.dropWhile_append_of_pos passed, own, List.cons_append,
    found, ← List.cons_append, List.takeWhile_append_of_pos kept,
    List.takeWhile_cons_of_neg (by decide), List.append_nil, ← own, Text.intercalate_codeLines,
    Text.between?_append]

/-! ## Classes -/

/-- The lines of a class below the one that declares it. -/
def methodLines (typeName body : String) : List String :=
  ["  const " ++ className typeName ++ "(\x7bsuper.key\x7d);", "", "  @override",
    "  Widget build(BuildContext context) \x7b"] ++
    (codeLines (returnWord ++ body ++ ";") ++ ["  \x7d", "\x7d"])

/-- The lines of the class of a root. -/
def classLines (typeName body : String) : List String :=
  "" :: ("class " ++ className typeName ++ " extends StatelessWidget \x7b") ::
    methodLines typeName body

theorem hasLines_widgetClass (single : OneLine (className typeName)) :
    HasLines (widgetClass typeName body) (classLines typeName body) := by
  have declared : OneLine ("class " ++ className typeName ++ " extends StatelessWidget \x7b") :=
    oneLine_append.mpr ⟨oneLine_append.mpr ⟨by decide, single⟩, by decide⟩
  have made : OneLine ("  const " ++ className typeName ++ "(\x7bsuper.key\x7d);") :=
    oneLine_append.mpr ⟨oneLine_append.mpr ⟨by decide, single⟩, by decide⟩
  have opening : HasLines "  @override\n  Widget build(BuildContext context) \x7b\n"
      ["  @override", "  Widget build(BuildContext context) \x7b"] :=
    .of_codeLines ((Text.codeLines_ofList _).trans rfl)
  have closing : HasLines "  \x7d\n\x7d\n" ["  \x7d", "\x7d"] :=
    .of_codeLines ((Text.codeLines_ofList _).trans rfl)
  have blank : HasLines ("" ++ "\n") [""] := .line (by decide)
  have method := opening.append (.append (.ended (returnWord ++ body ++ ";")) closing)
  have whole := blank.append (.append (.line declared) (.append (.line made) (blank.append method)))
  have feeds : "\nclass " = "\n" ++ "class " ∧
      " extends StatelessWidget \x7b\n" = " extends StatelessWidget \x7b" ++ "\n" ∧
      "(\x7bsuper.key\x7d);\n\n" = "(\x7bsuper.key\x7d);" ++ ("\n" ++ "\n") ∧
      ";\n  \x7d\n\x7d\n" = ";" ++ ("\n" ++ "  \x7d\n\x7d\n") := ⟨rfl, rfl, rfl, rfl⟩
  unfold widgetClass
  simp only [feeds, returnWord, String.empty_append, String.append_assoc] at whole ⊢
  exact whole

/-- Below its declaration no line of a class starts like a declaration or an import. -/
theorem head?_of_mem_methodLines (hangs : Hangs 4 body) :
    ∀ line ∈ methodLines typeName body, line.toList.head? ∉ [some 'c', some 'i'] := by
  obtain ⟨first, back, own, -, inner⟩ := exists_codeLines_return hangs
  rw [methodLines, own]
  refine List.forall_mem_append.mpr ⟨List.forall_mem_cons.mpr ⟨by simp, by decide +kernel⟩,
    List.forall_mem_append.mpr ⟨fun line member => ?_, by decide +kernel⟩⟩
  rw [(inner line member).head?]
  decide

/-- The class of a root is read from its lines with what its method returns. -/
theorem classesIn_classLines (hangs : Hangs 4 body) (isName : Text.IsName (className typeName)) :
    classesIn (classLines typeName body ++ rest) =
      (className typeName, some body) :: classesIn rest := by
  have silent : ∀ line ∈ methodLines typeName body, declaredOn "class ".toList line.toList = [] :=
    fun line member => declaredOn_of_head? fun same =>
      head?_of_mem_methodLines hangs line member (List.mem_cons.mpr (.inl same))
  have declared : declaredOn "class ".toList
      ("class " ++ className typeName ++ " extends StatelessWidget \x7b").toList =
        [className typeName] := by
    rw [← Text.declaredNames_of_oneLine]
    · exact Text.declaredNames_keyword (by decide) isName (by decide) (by decide)
    · exact oneLine_append.mpr ⟨oneLine_append.mpr ⟨by decide, isName.oneLine⟩, by decide⟩
  have value : returned? (methodLines typeName body ++ rest) = some body := by
    rw [methodLines, List.append_assoc, List.append_assoc]
    exact returned?_lines hangs
      (List.forall_mem_cons.mpr ⟨by simp [returnWord], by decide +kernel⟩)
  rw [classLines, List.cons_append, List.cons_append, classesIn, classesIn, declared, value,
    classesIn_append silent]
  rfl

/-- Classes are read one after the other. -/
theorem classesIn_classes {roots : List (String × String)}
    (each : ∀ root ∈ roots, Hangs 4 root.2 ∧ Text.IsName (className root.1)) :
    classesIn (roots.flatMap (fun root => classLines root.1 root.2) ++ rest) =
      (roots.map fun root => (className root.1, some root.2)) ++ classesIn rest := by
  induction roots with
  | nil => rfl
  | cons root roots ih =>
      obtain ⟨⟨hangs, isName⟩, others⟩ := List.forall_mem_cons.mp each
      rw [List.flatMap_cons, List.append_assoc, classesIn_classLines hangs isName, ih others,
        List.map_cons, List.cons_append]

/-- No line of a class uses a class. -/
theorem usedOn_of_mem_classLines (hangs : Hangs 4 body) :
    ∀ line ∈ classLines typeName body, usedOn line = none := by
  obtain ⟨first, back, own, -, inner⟩ := exists_codeLines_return hangs
  rw [classLines, methodLines, own]
  refine List.forall_mem_cons.mpr ⟨by decide +kernel, List.forall_mem_cons.mpr ⟨?_,
    List.forall_mem_append.mpr ⟨List.forall_mem_cons.mpr ⟨?_, by decide +kernel⟩,
      List.forall_mem_append.mpr ⟨?_, by decide +kernel⟩⟩⟩⟩
  · exact usedOn_of_getLast? (by simp [List.getLast?_cons])
  · exact usedOn_of_getLast? (by simp [List.getLast?_cons])
  · exact fun line member => usedOn_of_calm (inner line member).1

/-- No line of a class is an import. -/
theorem uiImport_not_mem_classLines (hangs : Hangs 4 body) :
    uiImport ∉ classLines typeName body := by
  intro member
  have start : uiImport.toList.head? = some 'i' := by decide
  rcases List.mem_cons.mp member with same | inside
  · exact absurd same (by decide)
  · rcases List.mem_cons.mp inside with same | below
    · rw [same] at start
      simp at start
    · exact head?_of_mem_methodLines hangs _ below (by rw [start]; decide)

/-! ## The scaffold -/

/-- A line that uses the class of a root. -/
def useText (typeName : String) : String :=
  Text.spaces 14 ++ (keyword ++ className typeName ++ "(),")

theorem hasLines_appHead (needsUi : Bool) :
    HasLines (appHead needsUi) (endedLines (appHead needsUi)) := by
  refine .endedLines ?_
  unfold appHead
  rw [String.toList_append, List.getLast?_append]
  rfl

theorem hasLines_appFoot : HasLines appFoot (endedLines appFoot) :=
  .endedLines (by unfold appFoot; decide +kernel)

theorem hasLines_useLine (single : OneLine (className typeName)) :
    HasLines (useLine typeName) [useText typeName] := by
  have line : OneLine (useText typeName) := oneLine_append.mpr ⟨Text.oneLine_spaces 14,
    oneLine_append.mpr ⟨oneLine_append.mpr ⟨by decide, single⟩, by decide⟩⟩
  have margin : "              const " = Text.spaces 14 ++ keyword := by decide
  have ending : "(),\n" = "()," ++ "\n" := rfl
  have code : useLine typeName = useText typeName ++ "\n" := by
    unfold useLine useText
    simp only [margin, ending, String.append_assoc]
  exact code ▸ .line line

theorem usedOn_useText (typeName : String) :
    usedOn (useText typeName) = some (className typeName) := by
  rw [useText, usedOn_spaces]

theorem head?_useText (typeName : String) : (useText typeName).toList.head? = some ' ' := by
  simp [useText, Text.spaces, List.replicate_succ]

/-- A line that is not the use of a class, be it that it starts otherwise or that it does not end
like one. -/
def NoUse (line : List Char) : Prop := Calm line ∨ line.getLast? ≠ some ','

instance (line : List Char) : Decidable (NoUse line) :=
  inferInstanceAs (Decidable (Calm line ∨ line.getLast? ≠ some ','))

theorem usedOn_of_noUse (noUse : NoUse line.toList) : usedOn line = none :=
  noUse.elim usedOn_of_calm usedOn_of_getLast?

/-- The scaffold uses no class of a root and declares one class of its own, and it has the import
if that is needed. -/
theorem lines_appHead (needsUi : Bool) :
    (∀ line ∈ endedLines (appHead needsUi), NoUse line.toList) ∧
      (endedLines (appHead needsUi)).flatMap (fun line => declaredOn "class ".toList line.toList) =
        ["MyApp"] ∧
      (uiImport ∈ endedLines (appHead needsUi) ↔ needsUi = true) := by
  rw [Text.forall_mem_endedLines, Text.flatMap_endedLines, Text.mem_endedLines]
  unfold appHead
  cases needsUi
  all_goals
    simp only [Bool.false_eq_true, if_false, if_true, String.append_assoc]
    repeat rw [← String.ofList_append]
    rw [String.toList_ofList]
    decide +kernel

theorem lines_appFoot :
    (∀ line ∈ endedLines appFoot, NoUse line.toList) ∧
      (∀ line ∈ endedLines appFoot, declaredOn "class ".toList line.toList = []) ∧
      uiImport ∉ endedLines appFoot := by
  rw [Text.forall_mem_endedLines, @Text.forall_mem_endedLines _ (declaredOn "class ".toList · = []),
    Text.mem_endedLines]
  unfold appFoot
  rw [String.toList_ofList]
  decide +kernel

/-! ## Blurs -/

/-- The widgets of a forest blur if one of its nodes does. -/
theorem listBlurs_iff (forest : List Node) :
    (∀ n ∈ Node.preorderList forest, isLeaf n.box = true → n.children = []) →
      (listBlurs forest = true ↔
        ∃ n ∈ Node.preorderList forest, ∃ e ∈ n.box.style.effects, isBlur e = true) := by
  induction forest using Node.forestInduction with
  | nil => simp [listBlurs, Node.preorderList]
  | cons box children rest below after =>
      intro leaves
      obtain ⟨own, inner, others⟩ := Node.forall_preorderList_mk_cons.mp leaves
      have deeper : (!isLeaf box && listBlurs children) = listBlurs children := by
        cases leaf : isLeaf box with
        | false => rfl
        | true =>
            have childless : children = [] := own leaf
            rw [childless]
            rfl
      rw [listBlurs, blurs, deeper, Node.preorderList_mk_cons]
      simp only [Bool.or_eq_true, List.any_eq_true, below inner, after others, List.mem_cons,
        List.mem_append, or_and_right, exists_or, exists_eq_left, or_assoc]
      rfl

/-! ## Applications -/

variable {t : Settings} {forest : List Node}

/-- The roots with their type names and the code of their widgets. -/
abbrev widgets (t : Settings) (forest : List Node) : List (String × String) :=
  namedRoots forest fun n => (widget t.showLayerNames none n).render 4

/-- The code of an application. -/
structure ApplicationCode (t : Settings) (forest : List Node) : Prop where
  /-- It is what the template makes of the widgets, whatever is in them. -/
  rendered : Template.render? appTemplate (appData t forest) = some (app t forest)
  length : (typeNames forest).length = forest.length
  distinct : ("MyApp" :: (typeNames forest).map className).Nodup
  /-- There is one line for each root that uses its class, in the order of the roots. -/
  used : (codeLines (app t forest)).filterMap usedOn = (typeNames forest).map className
  /-- Below the scaffold there is one class for each root, which returns its widget. -/
  defined : ∃ shell, classesIn (codeLines (app t forest)) =
    ("MyApp", shell) :: (widgets t forest).map fun root => (className root.1, some root.2)
  imports : uiImport ∈ codeLines (app t forest) ↔
    ∃ n ∈ Node.preorderList forest, ∃ e ∈ n.box.style.effects, isBlur e = true

section

variable {s : Settings} {host : Option Scene.Node} {roots : List Scene.Node}

theorem isName_className (built : Design.build s host roots = .ok forest) :
    ∀ name ∈ typeNames forest, Text.IsName (className name) := by
  intro name member
  refine Text.isName_of_plain ?_
  rw [className, String.toList_append, List.forall_mem_append]
  have suffix : "Widget".toList.all Naming.isPlain = true := by decide
  exact ⟨fun c inside => .inr (Design.isPlain_of_mem_typeNames built member c inside),
    fun c inside => .inr (List.all_eq_true.mp suffix c inside)⟩

theorem nodup_classNames (forest : List Node) :
    ("MyApp" :: (typeNames forest).map className).Nodup := by
  refine List.nodup_cons.mpr ⟨fun member => ?_, ?_⟩
  · obtain ⟨name, -, same⟩ := List.mem_map.mp member
    have last := congrArg (·.toList.getLast?) same
    simp [className] at last
  · exact (Design.nodup_typeNames forest).map fun _ _ => (String.append_left_inj _).mp

theorem hangs_widgets (built : Design.build s host roots = .ok forest) (t : Settings) :
    ∀ root ∈ widgets t forest, Hangs 4 root.2 := by
  intro root member
  obtain ⟨n, among, own⟩ := List.mem_map.mp (List.of_mem_zip member).2
  rw [← own]
  exact (hangs_render (neat_widget_of_build built t.showLayerNames n among)).1 4

/-- The lines of an application, part by part. -/
theorem codeLines_app (built : Design.build s host roots = .ok forest) (t : Settings) :
    codeLines (app t forest) = endedLines (appHead (listBlurs forest)) ++
      (typeNames forest).map useText ++ endedLines appFoot ++
      (widgets t forest).flatMap (fun root => classLines root.1 root.2) ++ [""] := by
  have single : ∀ name ∈ typeNames forest, OneLine (className name) :=
    fun name member => (isName_className built name member).oneLine
  have uses : HasLines (String.join ((typeNames forest).map useLine))
      ((typeNames forest).map useText) := by
    have each : (typeNames forest).map useText = (typeNames forest).flatMap ([useText ·]) :=
      List.map_eq_flatMap
    rw [each]
    exact .join fun name member => hasLines_useLine (single name member)
  have classes : HasLines (String.join ((typeNames forest).zipWith widgetClass
      (forest.map fun n => (widget t.showLayerNames none n).render 4)))
      ((widgets t forest).flatMap fun root => classLines root.1 root.2) := by
    rw [← Design.map_namedRoots]
    refine .join fun root member => hasLines_widgetClass (single root.1 ?_)
    exact (List.of_mem_zip member).1
  exact (((hasLines_appHead (listBlurs forest)).append uses).append hasLines_appFoot).append classes
    |>.codeLines

/-- Only the lines that the scaffold has for the roots use classes. -/
theorem filterMap_usedOn_app (built : Design.build s host roots = .ok forest) (t : Settings) :
    (codeLines (app t forest)).filterMap usedOn = (typeNames forest).map className := by
  have head : (endedLines (appHead (listBlurs forest))).filterMap usedOn = [] :=
    List.filterMap_eq_nil_iff.mpr fun line member =>
      usedOn_of_noUse ((lines_appHead (listBlurs forest)).1 line member)
  have foot : (endedLines appFoot).filterMap usedOn = [] :=
    List.filterMap_eq_nil_iff.mpr fun line member => usedOn_of_noUse (lines_appFoot.1 line member)
  have classes : ((widgets t forest).flatMap fun root =>
      classLines root.1 root.2).filterMap usedOn = [] :=
    List.filterMap_eq_nil_iff.mpr (List.forall_mem_flatMap.mpr fun root member =>
      usedOn_of_mem_classLines (hangs_widgets built t root member))
  have own : usedOn ∘ useText = some ∘ className := by
    funext name
    rw [Function.comp_apply, usedOn_useText, Function.comp_apply]
  have last : [""].filterMap usedOn = [] := by decide +kernel
  rw [codeLines_app built]
  simp only [List.filterMap_append, head, foot, classes, last, List.filterMap_map, own,
    List.filterMap_eq_map, List.nil_append, List.append_nil]

/-- Below the class of the scaffold there are those of the roots. -/
theorem classesIn_app (built : Design.build s host roots = .ok forest) (t : Settings) :
    ∃ shell, classesIn (codeLines (app t forest)) =
      ("MyApp", shell) :: (widgets t forest).map fun root => (className root.1, some root.2) := by
  obtain ⟨shell, scaffold⟩ := exists_classesIn_append (lines_appHead (listBlurs forest)).2.1
  have uses : ∀ line ∈ (typeNames forest).map useText,
      declaredOn "class ".toList line.toList = [] := by
    refine List.forall_mem_map.mpr fun name _ => declaredOn_of_head? ?_
    rw [head?_useText]
    decide
  have classes : ∀ root ∈ widgets t forest, Hangs 4 root.2 ∧ Text.IsName (className root.1) :=
    fun root member => ⟨hangs_widgets built t root member,
      isName_className built root.1 (List.of_mem_zip member).1⟩
  have last : classesIn [""] = [] := by decide +kernel
  refine ⟨shell, ?_⟩
  rw [codeLines_app built]
  simp only [List.append_assoc]
  rw [scaffold, classesIn_append uses, classesIn_append lines_appFoot.2.1,
    classesIn_classes classes, last, List.append_nil]

/-- The import is there for the nodes that blur, wherever they are. -/
theorem uiImport_mem_app_iff (built : Design.build s host roots = .ok forest) (t : Settings) :
    uiImport ∈ codeLines (app t forest) ↔
      ∃ n ∈ Node.preorderList forest, ∃ e ∈ n.box.style.effects, isBlur e = true := by
  have leaves : ∀ n ∈ Node.preorderList forest, isLeaf n.box = true → n.children = [] :=
    fun n member leaf => (Design.wellFormed_of_mem_build built member).kept.leaf (.inr (.inl leaf))
  have uses : uiImport ∉ (typeNames forest).map useText := by
    intro member
    obtain ⟨name, -, same⟩ := List.mem_map.mp member
    have start := head?_useText name
    rw [same] at start
    exact absurd start (by decide)
  have classes : uiImport ∉ (widgets t forest).flatMap fun root => classLines root.1 root.2 := by
    intro member
    obtain ⟨root, among, inside⟩ := List.mem_flatMap.mp member
    exact uiImport_not_mem_classLines (hangs_widgets built t root among) inside
  have last : uiImport ∉ [""] := by decide
  rw [← listBlurs_iff forest leaves, codeLines_app built,
    ← (lines_appHead (listBlurs forest)).2.2]
  simp only [List.mem_append, lines_appFoot.2.2, uses, classes, last, or_false]

/-- An application has a class for each root, whatever users write in it. -/
theorem applicationCode_of_build (built : Design.build s host roots = .ok forest) (t : Settings) :
    ApplicationCode t forest where
  rendered := render_app t forest
  length := Design.length_typeNames forest
  distinct := nodup_classNames forest
  used := filterMap_usedOn_app built t
  defined := classesIn_app built t
  imports := uiImport_mem_app_iff built t

/-- A text that looks like a value of the template, below a name that looks like the use of a
class. -/
theorem applicationCode_of_build_braces :
    let label : Scene.Node := .mk
      { name := "const PhotoWidget(),", nodeType := "TEXT",
        characters := some "\x7b\x7bname\x7d\x7d" } []
    let photo : Scene.Node := .mk
      { name := "Photo", nodeType := "FRAME",
        effects := [{ effectType := .layerBlur, radius := 4.0 }] } []
    let t := { Settings.defaults with
      framework := .flutter, flutterScope := .full, showLayerNames := true }
    let forest := (Design.ofSelection t none [label, photo] .empty).1
    Design.build t none [label, photo] = .ok forest ∧ ApplicationCode t forest ∧
      (∃ first second, (widgets t forest).map Prod.snd = [first, second] ∧
        first = "// const PhotoWidget(),\n" ++
          "    SizedBox(\n      width: 0.0,\n      height: 0.0,\n      child: Text(\n" ++
          "        '\x7b\x7bname\x7d\x7d',\n        style: TextStyle(\n" ++
          "          fontFamily: 'Inter',\n          fontSize: 12.0,\n" ++
          "          fontWeight: FontWeight.w400,\n        ),\n      ),\n    )") ∧
      uiImport ∈ codeLines (app t forest) := by
  intro label photo t forest
  have built : Design.build t none [label, photo] = .ok forest := rfl
  have code := applicationCode_of_build built t
  exact ⟨built, code, ⟨_, _, rfl, by decide +kernel⟩, code.imports.mpr (by decide +kernel)⟩

end

end Handoff.Dart
