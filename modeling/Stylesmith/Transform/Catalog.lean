import Stylesmith.Text.Basic

set_option autoImplicit false

namespace Stylesmith.Catalog

def aliases : List (Text × Text) := [
  ("fx", "firefox"),
  ("ff", "firefox"),
  ("ios", "ios_saf"),
  ("explorer", "ie"),
  ("blackberry", "bb"),
  ("explorermobile", "ie_mob"),
  ("operamini", "op_mini"),
  ("operamobile", "op_mob"),
  ("chromeandroid", "and_chr"),
  ("firefoxandroid", "and_ff"),
  ("ucandroid", "and_uc"),
  ("qqandroid", "and_qq")]

/-- The versions of a browser: whole numbers in a range, and others by their names. -/
structure Versions where
  first : Nat
  last : Nat
  others : List Text

def versions (first last : Nat) (others : Text) : Versions := ⟨first, last, Text.splitOn ' ' others⟩

def browsers : List (Text × Versions) := [
  ("ie", versions 6 11 "5.5"),
  ("edge", versions 12 18 (Text.join [' '] ((List.range 70).map fun n => Nat.repr (n + 79)))),
  ("firefox", versions 2 150 "3.5 3.6"),
  ("chrome", versions 4 150 ""),
  ("safari", versions 3 18
    ("3.1 3.2 5.1 6.1 7.1 9.1 10.1 11.1 12.1 13.1 14.1 15.1 15.2 15.3 15.2-15.3 15.4 15.5 15.6 " ++
      "16.0 16.1 16.2 16.3 16.4 16.5 16.6 17.0 17.1 17.2 17.3 17.4 17.5 17.6 18.0 18.1 18.2 18.3 " ++
      "18.4 18.5 18.6 18.5-18.6 26.0 26.1 26.2 TP")),
  ("opera", versions 9 130 "9.5 9.6 9.5-9.6 10.0 10.1 10.0-10.1 10.5 10.6 11.1 11.5 11.6 12.1"),
  ("ios_saf", versions 3 18
    ("3.2 4.0 4.1 4.2 4.3 5.0 5.1 6.0 6.1 7.0 7.1 8.0 8.1 8.2 8.3 8.4 9.0 9.1 9.2 9.3 10.0 10.1 " ++
      "10.2 10.3 11.0 11.1 11.2 11.3 11.4 12.0 12.1 12.2 12.3 12.4 12.5 13.0 13.1 13.2 13.3 13.4 " ++
      "13.5 13.6 13.7 14.0 14.1 14.2 14.3 14.4 14.5 14.6 14.7 14.8 15.0 15.1 15.2 15.3 15.4 15.5 " ++
      "15.6 15.7 15.8 16.0 16.1 16.2 16.3 16.4 16.5 16.6 16.7 17.0 17.1 17.2 17.3 17.4 17.5 17.6 " ++
      "17.7 18.0 18.1 18.2 18.3 18.4 18.5 18.6 26.0 26.1 26.2")),
  ("op_mini", versions 1 0 "all"),
  ("android", versions 3 4 "2.1 2.2 2.3 4.1 4.2 4.3 4.2-4.3 4.4 4.4.3 4.4.4 4.4.3-4.4.4"),
  ("bb", versions 7 7 "10"),
  ("op_mob", versions 10 12 "11.1 11.5 12.1 80"),
  ("and_chr", versions 130 150 ""),
  ("and_ff", versions 130 150 ""),
  ("ie_mob", versions 10 11 ""),
  ("and_uc", versions 1 0 "15.5"),
  ("samsung", versions 4 29
    ("5.0 5.4 5.0-5.4 6.2 6.4 6.2-6.4 7.2 7.4 7.2-7.4 8.2 9.2 10.1 11.1 11.2 11.1-11.2 12.0 13.0 " ++
      "14.0 15.0 16.0 17.0 18.0 19.0 20.0 21.0 22.0 23.0 24.0 25.0 26.0 27.0 28.0 29.0")),
  ("and_qq", versions 1 0 "14.9"),
  ("baidu", versions 1 0 "13.52 13.18"),
  ("kaios", versions 1 0 "2.5 3.0 3.1 3.0-3.1")]

def number? (t : Text) : Option Nat :=
  if t.isEmpty ∨ !t.all Char.isDigit then none
  else some (t.foldl (fun n c => 10 * n + (c.toNat - 48)) 0)

def Versions.has (v : Versions) (version : Text) : Bool :=
  v.others.contains version || (number? version).any fun n => v.first ≤ n && n ≤ v.last

/-- The text without the endings `.0`; `fuel` bounds their number. -/
def withoutZeros : (fuel : Nat) → Text → Text
  | 0, t => t
  | fuel + 1, t =>
    if (".0" : Text).isSuffixOf t then withoutZeros fuel (t.take (t.length - 2)) else t

/-- Whether a version is known. A whole number may be written with a zero after a point, and the
other way round. -/
def Versions.hasAlike (v : Versions) (version : Text) : Bool :=
  let version := if Text.eqIgnoringCase version "tp" then "TP".toList else version
  v.has version ||
    v.has (if version.contains '.' then withoutZeros version.length version else version ++ ".0")

def browser? (name : Text) : Option Versions :=
  let name := Text.lowerAscii name
  browsers.lookup ((aliases.lookup name).getD name)

def newestElectron : Nat := 40

def newestNode : Nat := 25

def isReleased (newest : Nat) (version : Text) : Bool :=
  (number? (version.takeWhile (· != '.'))).any (· ≤ newest)

def countries : List Text :=
  Text.splitOn ' ' <|
    "ad ae af ag ai al am ao ar as at au aw ax az ba bb bd be bf bg bh bi bj bm bn bo br bs bt bw " ++
    "by bz ca cd cf cg ch ci ck cl cm cn co cr cu cv cx cy cz de dj dk dm do dz ec ee eg er es et " ++
    "fi fj fk fm fo fr ga gb gd ge gf gg gh gi gl gm gn gp gq gr gt gu gw gy hk hn hr ht hu id ie " ++
    "il im in iq ir is it je jm jo jp ke kg kh ki km kn kp kr kw ky kz la lb lc li lk lr ls lt lu " ++
    "lv ly ma mc md me mg mh mk ml mm mn mo mp mq mr ms mt mu mv mw mx my mz na nc ne nf ng ni nl " ++
    "no np nr nu nz om pa pe pf pg ph pk pl pm pn pr ps pt pw py qa re ro rs ru rw sa sb sc sd se " ++
    "sg sh si sk sl sm sn so sr st sv sy sz tc td tg th tj tl tm tn to tr tt tv tw tz ua ug us uy " ++
    "uz va vc ve vg vi vn vu wf ws ye yt za zm zw"

def continents : List Text := ["af", "an", "as", "eu", "na", "oc", "sa", "ww"]

def hasRegion (region : Text) : Bool :=
  match Text.afterPrefix? "alt-" (Text.lowerAscii region) with
  | some continent => continents.contains continent
  | none => countries.contains (Text.lowerAscii region)

end Stylesmith.Catalog
