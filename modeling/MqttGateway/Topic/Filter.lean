/-!
# Topic names and topic filters

Both are texts of levels between slashes. In a filter the level `+` stands for any one level and a
last level `#` for any number of levels, none included. Matching looks only at the levels: it asks
neither for a well-formed filter nor for a well-formed name.
-/
namespace MqttGateway.Topic

abbrev Level := List Char

def levels (text : String) : List Level :=
  text.toList.splitOn '/'

def covers : List Level → List Level → Bool
  | [], names => names.isEmpty
  | level :: filter, names =>
    if level = ['#'] then filter.isEmpty
    else match names with
      | [] => false
      | name :: names => (level == ['+'] || level == name) && covers filter names

/-- Whether the filter covers the topic name. -/
def isCovered (topic filter : String) : Bool :=
  covers (levels filter) (levels topic)

/-- A name has no wildcard in it and no level of it is empty. -/
def isName (topic : String) : Bool :=
  (levels topic).all fun level => !level.isEmpty && !level.contains '+' && !level.contains '#'

/-- Wildcards stand alone in their levels, `#` only in the last one, and no level is empty. -/
def wellFormed : List Level → Bool
  | [] => true
  | level :: rest =>
    !level.isEmpty
      && (!level.contains '#' || (level == ['#'] && rest.isEmpty))
      && (!level.contains '+' || level == ['+'])
      && wellFormed rest

def isFilter (filter : String) : Bool :=
  wellFormed (levels filter)

end MqttGateway.Topic
