/-!
# What the program is called
-/
namespace ExprLex.About

def program : String := "mathlang-lex"
def version : String := "0.1.0"

def terms : String := "MIT"

end ExprLex.About
